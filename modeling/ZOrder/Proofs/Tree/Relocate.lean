/-
  ZOrder.Proofs.Tree.Relocate

  Moving a family from one place of a sound forest to another: it is taken out, and
  then attached to any node outside the family. Neither half is ever refused, so no
  family is lost between the two. Also the one edit that changes no links: noting
  another permanent band in some windows.
-/

import ZOrder.Engine.Moving
import ZOrder.Proofs.Tree.Order

namespace ZOrder.Tree

variable {H : Type} {t t' : Tree H} {loose : Option NodeId}

/-! ## From one place to another -/

/-- `t'` is `t` with the family of `id` moved from among the children of `p` to those of
`q`, above `slot` of the children that `q` has without it. -/
def Relocates (t t' : Tree H) (p q id : NodeId) (slot : Nat) : Prop :=
  ∃ (t₀ : Tree H) (below above : List NodeId), Grafts t₀ t p id below above ∧
    Grafts t₀ t' q id ((t₀.children q).take slot) ((t₀.children q).drop slot)

section Sound

variable [DecidableEq H] {p q id : NodeId} {w : H}

/-- A window can be taken out, wherever it is. -/
theorem Sound.exists_detach (h : t.Sound none) (hpar : t.parent id = some p) :
    ∃ t₀ below above, t.detach id = some (t₀, p, below.length) ∧
      Grafts t₀ t p id below above ∧ t₀.Sound (some id) := by
  obtain ⟨below, above, hcs, hbelow, -⟩ := h.exists_split hpar
  obtain ⟨t₀, hdetach, hgraft⟩ := Tree.exists_detach hpar hcs hbelow
  exact ⟨t₀, below, above, hdetach, hgraft, hgraft.sound_of_taken h⟩

omit [DecidableEq H] in
/-- Taking a node out erases it from the children of its parent. -/
theorem Grafts.children_eq_erase {below above : List NodeId} (h : Grafts t t' p id below above)
    (ht : t.Linked (some id)) (x : NodeId) : t.children x = (t'.children x).erase id := by
  have hid : ∀ y, id ∉ t.children y := by
    intro y hy
    rw [← ht.parent_iff, h.parentless] at hy
    cases hy
  rw [h.children]
  split
  · next hx =>
    have hbelow : id ∉ below := fun hm => hid p (by simp [h.split, hm])
    rw [hx, List.erase_append_right _ hbelow, List.erase_cons_head, h.split]
  · rw [List.erase_of_not_mem (hid x)]

/-- A window that was taken out can be attached anywhere outside its family. -/
theorem Sound.exists_attach (h : t.Sound (some id)) (hid : t.handle id = some w)
    (hq : t.Live q) (hnot : ¬ t.Below id q) (k : Nat) :
    ∃ t', t.attach q id k = some (t', min k (t.children q).length) ∧
      Grafts t t' q id ((t.children q).take (min k (t.children q).length))
        ((t.children q).drop (min k (t.children q).length)) ∧ t'.Sound none := by
  have hsub := h.isInSubtree_eq_false_iff.mpr hnot
  obtain ⟨t', hattach⟩ := Tree.exists_attach k hid (h.parent_loose id rfl) hq hsub
  have hgraft := (attach_cases hattach).2.2.2
  exact ⟨t', hattach, hgraft, hgraft.sound h (h.ne_root hid) hnot⟩

/-- Moving a family deletes its block from the order and inserts it elsewhere: what is left
without it stays as it is. -/
theorem Relocates.order_filter_eq {slot : Nat} (h : Relocates t t' p q id slot)
    (ht : t.Sound none) (ht' : t'.Sound none) :
    t'.order.filter (· ∉ t.descendants id) = t.order.filter (· ∉ t.descendants id) := by
  obtain ⟨t₀, below, above, hfrom, hto⟩ := h
  have ht₀ := hfrom.sound_of_taken ht
  rw [hfrom.descendants_family ht₀.toLinked ht.toLinked, ← hfrom.order_eq_filter ht₀ ht,
    ← hto.order_eq_filter ht₀ ht']

/-- The same for one band. -/
theorem Relocates.run_root_filter_eq {slot : Nat} (h : Relocates t t' p q id slot)
    (ht : t.Sound none) (ht' : t'.Sound none) (l : Layer) :
    (t'.run (root l)).filter (· ∉ t.descendants id) =
      (t.run (root l)).filter (· ∉ t.descendants id) := by
  obtain ⟨t₀, below, above, hfrom, hto⟩ := h
  have ht₀ := hfrom.sound_of_taken ht
  rw [hfrom.descendants_family ht₀.toLinked ht.toLinked, ← hfrom.run_root_eq_filter ht₀ ht,
    ← hto.run_root_eq_filter ht₀ ht']

/-- The same for the bands on either side of one band. -/
theorem Relocates.orderBelow_filter_eq {slot : Nat} (h : Relocates t t' p q id slot)
    (ht : t.Sound none) (ht' : t'.Sound none) (l : Layer) :
    (t'.orderBelow l).filter (· ∉ t.descendants id) =
      (t.orderBelow l).filter (· ∉ t.descendants id) := by
  rw [orderBelow, orderBelow, List.filter_flatMap, List.filter_flatMap]
  exact List.flatMap_congr fun l _ => h.run_root_filter_eq ht ht' l

theorem Relocates.orderAbove_filter_eq {slot : Nat} (h : Relocates t t' p q id slot)
    (ht : t.Sound none) (ht' : t'.Sound none) (l : Layer) :
    (t'.orderAbove l).filter (· ∉ t.descendants id) =
      (t.orderAbove l).filter (· ∉ t.descendants id) := by
  rw [orderAbove, orderAbove, List.filter_flatMap, List.filter_flatMap]
  exact List.flatMap_congr fun l _ => h.run_root_filter_eq ht ht' l

theorem Relocates.descendants_eq {slot : Nat} (h : Relocates t t' p q id slot)
    (ht : t.Sound none) (ht' : t'.Sound none) : t'.descendants id = t.descendants id := by
  obtain ⟨t₀, below, above, hfrom, hto⟩ := h
  have ht₀ := (hfrom.sound_of_taken ht).toLinked
  rw [hfrom.descendants_family ht₀ ht.toLinked, hto.descendants_family ht₀ ht'.toLinked]

omit [DecidableEq H] in
theorem Relocates.sameNodes {slot : Nat} (h : Relocates t t' p q id slot) : SameNodes t t' := by
  obtain ⟨t₀, below, above, hfrom, hto⟩ := h
  exact hfrom.toSameNodes.symm.trans hto.toSameNodes

omit [DecidableEq H] in
theorem Relocates.parent_eq {slot : Nat} (h : Relocates t t' p q id slot) :
    t.parent id = some p ∧ t'.parent id = some q := by
  obtain ⟨t₀, below, above, hfrom, hto⟩ := h
  exact ⟨hfrom.parent_self, hto.parent_self⟩

omit [DecidableEq H] in
/-- Only the node that moves gets another parent. -/
theorem Relocates.parent {slot : Nat} (h : Relocates t t' p q id slot) (x : NodeId) :
    t'.parent x = if x = id then some q else t.parent x := by
  obtain ⟨t₀, below, above, hfrom, hto⟩ := h
  rw [hto.parent, hfrom.parent]
  split <;> rfl

/-- The node that moves is taken out of one list of children and put into another one. -/
theorem Relocates.children {slot : Nat} (h : Relocates t t' p q id slot) (ht : t.Sound none)
    (x : NodeId) :
    t'.children x = if x = q then
      ((t.children q).erase id).take slot ++ id :: ((t.children q).erase id).drop slot
    else (t.children x).erase id := by
  obtain ⟨t₀, below, above, hfrom, hto⟩ := h
  have herase := hfrom.children_eq_erase (hfrom.sound_of_taken ht).toLinked
  rw [hto.children, herase, herase]

/-- A family keeps its members wherever it goes. -/
theorem Relocates.below_iff {slot : Nat} (h : Relocates t t' p q id slot) (ht : t.Sound none)
    (ht' : t'.Sound none) {x : NodeId} : t'.Below id x ↔ t.Below id x := by
  obtain ⟨t₀, below, above, hfrom, hto⟩ := h
  rw [hto.below_iff ht'.toLinked, hfrom.below_iff ht.toLinked]

omit [DecidableEq H] in
/-- Outside the family, every node still lies below what it lay below. -/
theorem Relocates.below_of_not_below {slot : Nat} (h : Relocates t t' p q id slot) {a x : NodeId}
    (hx : ¬ t.Below id x) (hax : t.Below a x) : t'.Below a x :=
  hax.of_not_below (fun y hne => (h.parent y).trans (if_neg hne)) hx

/-- A family that leaves a band for another one takes its block out of the band. -/
theorem Relocates.run_origin_eq {origin l : Layer} {slot : Nat}
    (h : Relocates t t' (root origin) (root l) id slot) (ht : t.Sound none) (ht' : t'.Sound none)
    (hne : origin ≠ l) :
    t'.run (root origin) = (t.run (root origin)).filter (· ∉ t.descendants id) := by
  rw [← h.run_root_filter_eq ht ht', ← h.descendants_eq ht ht', filter_notMem_of_disjoint]
  intro y hy hmem
  have hid : t'.Below (root l) y :=
    .trans (.of_parent h.parent_eq.2 (Below.refl t' _)) (ht'.mem_descendants.mp hmem).2
  exact hne (ht'.root_eq_of_below (ht'.mem_run.mp hy).2.1 hid)

/-- Before the move, the family is all that stands between the bands below its own and
those above, once the rest of its own band is left out. -/
theorem Relocates.order_filter_origin {origin l : Layer} {slot : Nat}
    (h : Relocates t t' (root origin) (root l) id slot) (ht : t.Sound none) (ht' : t'.Sound none)
    (hne : origin ≠ l) :
    t.order.filter (· ∉ t'.run (root origin)) =
      (t'.orderBelow origin).filter (· ∉ t.descendants id) ++ t.descendants id ++
        (t'.orderAbove origin).filter (· ∉ t.descendants id) := by
  obtain ⟨w, hw⟩ := ht.exists_handle h.parent_eq.1
  have hfamily : t.descendants id <:+: t.run (root origin) := by
    rw [← ht.run_of_handle hw]
    exact ht.run_infix (.of_parent h.parent_eq.1 (Below.refl t _))
  have hsub : ∀ y ∈ t'.run (root origin), y ∈ t.run (root origin) := by
    intro y hy
    rw [h.run_origin_eq ht ht' hne] at hy
    exact List.mem_of_mem_filter hy
  have hnodup := ht.nodup_order
  rw [t.order_eq_append origin] at hnodup ⊢
  obtain ⟨hbelow, habove, -⟩ := disjoint_of_nodup_block hnodup
  -- The band on the left has the family as one block, the band on the right has the rest.
  have hown : (t.run (root origin)).filter (· ∉ t'.run (root origin)) = t.descendants id := by
    obtain ⟨before, after, hsplit⟩ := hfamily
    have hblock := ht.nodup_run (root origin)
    rw [← hsplit] at hblock
    rw [← filter_mem_block hblock, hsplit]
    refine List.filter_congr fun y hy => ?_
    rw [h.run_origin_eq ht ht' hne]
    simp [hy]
  rw [h.orderBelow_filter_eq ht ht', h.orderAbove_filter_eq ht ht', List.filter_append,
    List.filter_append, hown,
    filter_notMem_of_disjoint fun y hy hmem => hbelow hy (hsub y hmem),
    filter_notMem_of_disjoint fun y hy hmem => habove hy (hsub y hmem),
    filter_notMem_of_disjoint fun y hy hmem => hbelow hy (hfamily.subset hmem),
    filter_notMem_of_disjoint fun y hy hmem => habove hy (hfamily.subset hmem)]

end Sound

/-! ## Other permanent bands -/

/-- Two forests that differ at most in the permanent bands of their windows. -/
structure SameShape (t t' : Tree H) : Prop where
  handle : ∀ x, t'.handle x = t.handle x
  layerAt : ∀ x, t'.layerAt x = t.layerAt x
  parent : ∀ x, t'.parent x = t.parent x
  children : ∀ x, t'.children x = t.children x
  size : t'.nodes.size = t.nodes.size
  free : t'.free = t.free
  index : t'.index = t.index

namespace SameShape

theorem refl (t : Tree H) : SameShape t t :=
  ⟨fun _ => rfl, fun _ => rfl, fun _ => rfl, fun _ => rfl, rfl, rfl, rfl⟩

theorem symm (h : SameShape t t') : SameShape t' t :=
  ⟨fun x => (h.handle x).symm, fun x => (h.layerAt x).symm, fun x => (h.parent x).symm,
    fun x => (h.children x).symm, h.size.symm, h.free.symm, h.index.symm⟩

theorem trans {t'' : Tree H} (h : SameShape t t') (h' : SameShape t' t'') : SameShape t t'' :=
  ⟨fun x => (h'.handle x).trans (h.handle x), fun x => (h'.layerAt x).trans (h.layerAt x),
    fun x => (h'.parent x).trans (h.parent x), fun x => (h'.children x).trans (h.children x),
    h'.size.trans h.size, h'.free.trans h.free, h'.index.trans h.index⟩

theorem live (h : SameShape t t') (x : NodeId) : t'.Live x ↔ t.Live x := by
  have hlive : ∀ s : Tree H, s.Live x ↔ s.layerAt x ≠ none ∨ s.handle x ≠ none := by
    intro s
    simp only [Option.ne_none_iff_exists']
    refine ⟨Live.layerAt_or_handle, ?_⟩
    rintro (⟨l, hl⟩ | ⟨w, hw⟩)
    · exact live_of_layerAt hl
    · exact live_of_handle hw
  rw [hlive, hlive, h.layerAt, h.handle]

theorem below_iff (h : SameShape t t') {a x : NodeId} : t'.Below a x ↔ t.Below a x := by
  simp only [Below, h.parent]

theorem linked (h : SameShape t t') (ht : t.Linked loose) : t'.Linked loose where
  parent_iff c p := by rw [h.parent, h.children, ht.parent_iff]
  children_nodup p := by rw [h.children]; exact ht.children_nodup p
  parent_root l := by rw [h.parent, ht.parent_root]
  parent_loose x hx := by rw [h.parent, ht.parent_loose x hx]
  orphan x hx hp := ht.orphan x ((h.live x).mp hx) (by rw [← h.parent, hp])
  acyclic := by
    obtain ⟨rank, hrank⟩ := ht.acyclic
    exact ⟨rank, fun c p hc => hrank c p (by rw [← h.parent, hc])⟩

theorem descendants_eq (h : SameShape t t') (ht : t.Linked loose) (x : NodeId) :
    t'.descendants x = t.descendants x :=
  descendants_congr ht (h.linked ht) (fun y _ => h.live y) fun y _ => h.children y

theorem run_eq (h : SameShape t t') (ht : t.Linked loose) (x : NodeId) :
    t'.run x = t.run x := by
  rw [run, run, h.descendants_eq ht]
  exact List.filter_congr fun y _ => by rw [h.handle]

theorem order_eq (h : SameShape t t') (ht : t.Linked loose) : t'.order = t.order :=
  List.flatMap_congr fun l _ => h.run_eq ht (root l)

theorem sound [DecidableEq H] (h : SameShape t t') (ht : t.Sound loose) : t'.Sound loose where
  toLinked := h.linked ht.toLinked
  kind_root l := layerAt_eq_some_iff.mp (by rw [h.layerAt, ht.layerAt_root])
  eq_root x l hx := by
    rw [← layerAt_eq_some_iff, h.layerAt, layerAt_eq_some_iff] at hx
    exact ht.eq_root x l hx
  get_iff w x := by rw [get, h.index, h.handle, ← get, ht.get_iff]
  keys_nodup := by rw [h.index]; exact ht.keys_nodup
  free_nodup := by rw [h.free]; exact ht.free_nodup
  mem_free x := by rw [h.free, h.size, h.live, ht.mem_free]

end SameShape

theorem sameShape_setHome (t : Tree H) (id : NodeId) (l : Layer) :
    SameShape t (t.setHome id l) := by
  have hhandle : ∀ n : Node H, (n.withHome l).handle = n.handle := by
    rintro ⟨⟨⟩, p, cs⟩ <;> rfl
  have hlayer : ∀ n : Node H, (n.withHome l).layer = n.layer := by
    rintro ⟨⟨⟩, p, cs⟩ <;> rfl
  have hparent : ∀ n : Node H, (n.withHome l).parent = n.parent := by
    rintro ⟨⟨⟩, p, cs⟩ <;> rfl
  have hchildren : ∀ n : Node H, (n.withHome l).children = n.children := by
    rintro ⟨⟨⟩, p, cs⟩ <;> rfl
  exact
    { handle := t.node_update_congr id _ (·.bind Node.handle) hhandle
      layerAt := t.node_update_congr id _ (·.bind Node.layer) hlayer
      parent := t.node_update_congr id _ (·.bind Node.parent) hparent
      children := t.node_update_congr id _ (fun n => (n.map Node.children).getD [])
        fun n => hchildren n
      size := by simp [setHome, update]
      free := rfl
      index := rfl }

theorem sameShape_settle (t : Tree H) (id : NodeId) (l : Layer) :
    SameShape t (Engine.settle t id l) := by
  rw [Engine.settle]
  generalize t.descendants id = ids
  induction ids generalizing t with
  | nil => exact .refl t
  | cons x xs ih => exact (sameShape_setHome t x l).trans (ih (t.setHome x l))

/-- A family that has moved to a band settles there if the band is a permanent one. -/
theorem sameShape_sent (t : Tree H) (id : NodeId) (l : Layer) :
    SameShape t (if l.isTemporary then t else Engine.settle t id l) := by
  split
  · exact .refl t
  · exact sameShape_settle t id l

end ZOrder.Tree
