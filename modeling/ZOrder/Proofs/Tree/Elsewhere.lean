/-
  ZOrder.Proofs.Tree.Elsewhere

  Forests that agree but for the place of one node. While a node is out, nothing tells where
  it was; so wherever it has been moved before, the next move leaves the same links behind.

  The links of a forest, its windows and their permanent bands are all there is to it, down
  to the slots.
-/

import ZOrder.Proofs.Tree.Homes

namespace ZOrder.Tree

variable {H : Type} {t t' s s' : Tree H} {id p p' q : NodeId} {slot : Nat}

/-! ## Forests that are the same -/

/-- A node is what it stands for and its links. -/
theorem node_eq_of_fields {x : NodeId} (hkind : t'.kind x = t.kind x)
    (hparent : t'.parent x = t.parent x) (hchildren : t'.children x = t.children x) :
    t'.node x = t.node x := by
  cases hn : t.node x with
  | none => rwa [kind, kind, hn, Option.map_none, Option.map_eq_none_iff] at hkind
  | some n =>
    obtain ⟨n', hn', hk⟩ := Option.map_eq_some_iff.mp (hkind.trans (by rw [kind, hn]; rfl))
    simp only [parent, children, hn, hn', Option.bind_some, Option.map_some,
      Option.getD_some] at hparent hchildren
    obtain ⟨k, p, cs⟩ := n
    obtain ⟨k', p', cs'⟩ := n'
    rw [hn', show k' = k from hk, show p' = p from hparent, show cs' = cs from hchildren]

/-- With the same permanent bands, nodes stand for the same. -/
theorem SameShape.kind (h : SameShape t t') {x : NodeId} (hhome : t'.home x = t.home x) :
    t'.kind x = t.kind x := by
  cases hk : t.kind x with
  | none =>
    by_contra hlive
    exact (h.live x).mp hlive hk
  | some k =>
    cases k with
    | layer l =>
      exact layerAt_eq_some_iff.mp ((h.layerAt x).trans (layerAt_eq_some_iff.mpr hk))
    | window w home =>
      obtain ⟨home', hw⟩ :=
        handle_eq_some_iff.mp ((h.handle x).trans (handle_eq_some_iff.mpr ⟨home, hk⟩))
      obtain ⟨w', hl⟩ := home_eq_some_iff.mp (hhome.trans (home_eq_some_iff.mpr ⟨w, hk⟩))
      cases hw.symm.trans hl
      exact hw

/-- Forests of one shape are the same if their windows have the same permanent bands. -/
theorem SameShape.eq_of_home (h : SameShape t t') (hhome : ∀ x, t'.home x = t.home x) :
    t' = t := by
  have hnode : ∀ x, t'.node x = t.node x := fun x =>
    node_eq_of_fields (h.kind (hhome x)) (h.parent x) (h.children x)
  obtain ⟨nodes, free, index⟩ := t
  obtain ⟨nodes', free', index'⟩ := t'
  obtain rfl : free' = free := h.free
  obtain rfl : index' = index := h.index
  congr 1
  refine Array.ext h.size fun i hi hi' => ?_
  have heq := hnode i
  simpa [node, hi, hi'] using heq

/-! ## Forests that differ in one place -/

/-- Two forests with the same windows in the same slots. All hang alike but the one in slot
`id`, and the permanent bands may be others. -/
structure SameElsewhere (t t' : Tree H) (id : NodeId) : Prop where
  handle : ∀ x, t'.handle x = t.handle x
  layerAt : ∀ x, t'.layerAt x = t.layerAt x
  parent : ∀ x, x ≠ id → t'.parent x = t.parent x
  children : ∀ x, (t'.children x).erase id = (t.children x).erase id
  size : t'.nodes.size = t.nodes.size
  free : t'.free = t.free
  index : t'.index = t.index

namespace SameElsewhere

theorem refl (t : Tree H) (id : NodeId) : SameElsewhere t t id :=
  ⟨fun _ => rfl, fun _ => rfl, fun _ _ => rfl, fun _ => rfl, rfl, rfl, rfl⟩

theorem trans {t'' : Tree H} (h : SameElsewhere t t' id) (h' : SameElsewhere t' t'' id) :
    SameElsewhere t t'' id :=
  ⟨fun x => (h'.handle x).trans (h.handle x), fun x => (h'.layerAt x).trans (h.layerAt x),
    fun x hx => (h'.parent x hx).trans (h.parent x hx),
    fun x => (h'.children x).trans (h.children x), h'.size.trans h.size, h'.free.trans h.free,
    h'.index.trans h.index⟩

theorem get [DecidableEq H] (h : SameElsewhere t t' id) (w : H) : t'.get w = t.get w := by
  rw [Tree.get, Tree.get, h.index]

end SameElsewhere

theorem SameShape.sameElsewhere (h : SameShape t t') (id : NodeId) : SameElsewhere t t' id :=
  ⟨h.handle, h.layerAt, fun x _ => h.parent x, fun x => by rw [h.children x], h.size, h.free,
    h.index⟩

section

variable [DecidableEq H]

/-- A node that moves leaves all others where they hang. -/
theorem Relocates.sameElsewhere (h : Relocates t t' p q id slot) (ht : t.Sound none) :
    SameElsewhere t t' id where
  handle := h.sameNodes.handle
  layerAt := h.sameNodes.layerAt
  parent x hx := (h.parent x).trans (if_neg hx)
  children x := by
    obtain ⟨t₀, below, above, hfrom, hto⟩ := h
    have ht₀ := (hfrom.sound_of_taken ht).toLinked
    rw [← hfrom.children_eq_erase ht₀, ← hto.children_eq_erase ht₀]
  size := h.sameNodes.size
  free := h.sameNodes.free
  index := h.sameNodes.index

/-- Wherever a node comes from, at one place it leaves the same shape. -/
theorem Relocates.sameShape (h : Relocates t t' p q id slot) (h' : Relocates s s' p' q id slot)
    (ht : t.Sound none) (hs : s.Sound none) (hsame : SameElsewhere t s id) : SameShape t' s' where
  handle x := by rw [h'.sameNodes.handle, hsame.handle, h.sameNodes.handle]
  layerAt x := by rw [h'.sameNodes.layerAt, hsame.layerAt, h.sameNodes.layerAt]
  parent x := by
    rw [h'.parent, h.parent]
    split
    · rfl
    · next hx => exact hsame.parent x hx
  children x := by rw [h'.children hs, h.children ht, hsame.children, hsame.children]
  size := by rw [h'.sameNodes.size, hsame.size, h.sameNodes.size]
  free := by rw [h'.sameNodes.free, hsame.free, h.sameNodes.free]
  index := by rw [h'.sameNodes.index, hsame.index, h.sameNodes.index]

end

end ZOrder.Tree
