/-
  ZOrder.Proofs.Tree.Renames

  Two forests that differ only in which slot holds which window. A renaming takes each
  slot in use of one forest to the slot of the same window in the other, and every walk,
  query and edit of the second forest is that of the first with the slots renamed. The
  slots of roots are fixed, and a slot that is filled anew extends the renaming; where
  the empty slots are plays no part.
-/

import Mathlib.Data.List.Find
import ZOrder.Proofs.Tree.Homes

namespace ZOrder

/-! ## Lists of renamed slots -/

section

variable {α β : Type} [DecidableEq α] [DecidableEq β] {f : α → β} {a : α} {xs : List α}

/-- A name is found where the slot is found, if no other slot in the list shares the name. -/
theorem idxOf?_map_of_inj (h : ∀ c ∈ xs, f c = f a → c = a) :
    (xs.map f).idxOf? (f a) = xs.idxOf? a := by
  induction xs with
  | nil => rfl
  | cons c cs ih =>
    have hrest := ih fun d hd => h d (List.mem_cons_of_mem c hd)
    have hhead : f c = f a ↔ c = a := ⟨h c List.mem_cons_self, congrArg f⟩
    simp [List.idxOf?_cons, hhead, hrest]

/-- A name is erased where the slot is erased, if no other slot in the list shares it. -/
theorem map_erase_of_inj (h : ∀ c ∈ xs, f c = f a → c = a) :
    (xs.erase a).map f = (xs.map f).erase (f a) := by
  induction xs with
  | nil => rfl
  | cons c cs ih =>
    have hrest := ih fun d hd => h d (List.mem_cons_of_mem c hd)
    by_cases hc : c = a
    · rw [hc, List.erase_cons_head, List.map_cons, List.erase_cons_head]
    · have hname : f c ≠ f a := fun he => hc (h c List.mem_cons_self he)
      rw [List.erase_cons_tail (by simpa using hc), List.map_cons, List.map_cons,
        List.erase_cons_tail (by simpa using hname), hrest]

end

namespace Tree

variable {H : Type} {t t' t₀ t₀' : Tree H} {loose loose' : Option NodeId}
  {σ : NodeId → NodeId} {x y p q id : NodeId}

theorem children_of_not_live (hx : ¬ t.Live x) : t.children x = [] := by
  rw [Tree.children, node_eq_none_iff.mpr (not_not.mp hx)]
  rfl

theorem Linked.live_of_mem_descendants (h : t.Linked loose) (hy : y ∈ t.descendants x) :
    t.Live y := by
  obtain ⟨hx, hxy⟩ := h.mem_descendants.mp hy
  rcases hxy.cases_parent with rfl | ⟨p, hp, -⟩
  · exact hx
  · exact live_of_parent hp

theorem Sound.live_of_mem_order [DecidableEq H] (h : t.Sound loose) (hy : y ∈ t.order) :
    t.Live y := by
  obtain ⟨⟨w, hw⟩, -⟩ := h.mem_order.mp hy
  exact live_of_handle hw

/-- What a node stands for is read off its fields. -/
theorem kind_congr (hhandle : t'.handle y = t.handle x) (hhome : t'.home y = t.home x)
    (hlayer : t'.layerAt y = t.layerAt x) : t'.kind y = t.kind x := by
  ext k
  cases k with
  | layer l => rw [← layerAt_eq_some_iff, ← layerAt_eq_some_iff, hlayer]
  | window w l =>
    have hwindow : ∀ (s : Tree H) (z : NodeId),
        s.kind z = some (.window w l) ↔ s.handle z = some w ∧ s.home z = some l := by
      intro s z
      rw [handle_eq_some_iff, home_eq_some_iff]
      constructor
      · exact fun hk => ⟨⟨l, hk⟩, ⟨w, hk⟩⟩
      · rintro ⟨⟨l', hk⟩, ⟨w', hk'⟩⟩
        cases hk.symm.trans hk'
        exact hk
    rw [hwindow, hwindow, hhandle, hhome]

/-- The forest `t'` is `t` with every slot in use renamed by `σ`. -/
structure Renames (σ : NodeId → NodeId) (t t' : Tree H) : Prop where
  root : ∀ l, σ (root l) = root l
  inj : ∀ x y, t.Live x → t.Live y → σ x = σ y → x = y
  onto : ∀ y, t'.Live y → ∃ x, t.Live x ∧ σ x = y
  kind : ∀ x, t.Live x → t'.kind (σ x) = t.kind x
  parent : ∀ x, t.Live x → t'.parent (σ x) = (t.parent x).map σ
  children : ∀ x, t.Live x → t'.children (σ x) = (t.children x).map σ

namespace Renames

/-! ## One node -/

theorem live (h : Renames σ t t') (hx : t.Live x) : t'.Live (σ x) := by
  rw [Live, h.kind x hx]
  exact hx

theorem eq_iff (h : Renames σ t t') (hx : t.Live x) (hy : t.Live y) : σ x = σ y ↔ x = y :=
  ⟨h.inj x y hx hy, congrArg σ⟩

theorem handle (h : Renames σ t t') (hx : t.Live x) : t'.handle (σ x) = t.handle x := by
  ext w
  rw [handle_eq_some_iff, handle_eq_some_iff, h.kind x hx]

theorem home (h : Renames σ t t') (hx : t.Live x) : t'.home (σ x) = t.home x := by
  ext l
  rw [home_eq_some_iff, home_eq_some_iff, h.kind x hx]

theorem layerAt (h : Renames σ t t') (hx : t.Live x) : t'.layerAt (σ x) = t.layerAt x := by
  ext l
  rw [layerAt_eq_some_iff, layerAt_eq_some_iff, h.kind x hx]

theorem handles (h : Renames σ t t') {ids : List NodeId} (hids : ∀ c ∈ ids, t.Live c) :
    t'.handles (ids.map σ) = t.handles ids := by
  rw [Tree.handles, List.filterMap_map]
  exact List.filterMap_congr fun c hc => h.handle (hids c hc)

/-- A window is in the slot that its old slot is renamed to. -/
theorem get [DecidableEq H] (h : Renames σ t t') (ht : t.Slotted) (ht' : t'.Slotted) (w : H) :
    t'.get w = (t.get w).map σ := by
  ext y
  rw [Option.map_eq_some_iff, ht'.get_iff]
  constructor
  · intro hy
    obtain ⟨x, hx, rfl⟩ := h.onto y (live_of_handle hy)
    rw [h.handle hx] at hy
    exact ⟨x, (ht.get_iff w x).mpr hy, rfl⟩
  · rintro ⟨x, hx, rfl⟩
    have hw := (ht.get_iff w x).mp hx
    rw [h.handle (live_of_handle hw), hw]

/-! ## Upwards -/

theorem path (h : Renames σ t t') (ht : t.Linked loose) (ht' : t'.Linked loose')
    (hx : t.Live x) : t'.path (σ x) = (t.path x).map σ := by
  obtain ⟨top, htop, hnone⟩ := ht.exists_top x
  induction htop using Relation.ReflTransGen.head_induction_on with
  | refl =>
    have hnone' : t'.parent (σ top) = none := by rw [h.parent top hx, hnone]; rfl
    rw [path_of_parentless hnone, path_of_parentless hnone', List.map_singleton]
  | @head y p hp _ ih =>
    have hp' : t'.parent (σ y) = some (σ p) := by rw [h.parent y hx, hp]; rfl
    rw [ht.path_of_parent hp, ht'.path_of_parent hp', List.map_cons, ih (ht.live_parent hp)]

theorem layerOf (h : Renames σ t t') (ht : t.Linked loose) (ht' : t'.Linked loose')
    (hx : t.Live x) : t'.layerOf (σ x) = t.layerOf x := by
  rw [Tree.layerOf, Tree.layerOf, h.path ht ht' hx, List.getLast?_map]
  cases htop : (t.path x).getLast? with
  | none => rfl
  | some top =>
    have hlive := ht.live_of_below hx (ht.mem_path_iff.mp (List.mem_of_getLast? htop))
    exact h.layerAt hlive

theorem topLevel (h : Renames σ t t') (ht : t.Linked loose) (ht' : t'.Linked loose')
    (hx : t.Live x) : t'.topLevel (σ x) = (t.topLevel x).map σ := by
  rw [Tree.topLevel, Tree.topLevel, h.path ht ht' hx, List.find?_map]
  congr 1
  refine List.find?_congr fun y hy => ?_
  have hlive := ht.live_of_below hx (ht.mem_path_iff.mp hy)
  rw [Function.comp_apply, h.parent y hlive]
  cases hp : t.parent y with
  | none => rfl
  | some p =>
    rw [Option.map_some, Option.bind_some, Option.bind_some, h.layerAt (ht.live_parent hp)]

theorem isInSubtree (h : Renames σ t t') (ht : t.Linked loose) (ht' : t'.Linked loose')
    (ha : t.Live p) (hx : t.Live x) : t'.isInSubtree (σ p) (σ x) = t.isInSubtree p x := by
  rw [Bool.eq_iff_iff, Tree.isInSubtree, Tree.isInSubtree, List.contains_iff_mem,
    List.contains_iff_mem, h.path ht ht' hx, List.mem_map]
  constructor
  · rintro ⟨y, hy, he⟩
    have hlive := ht.live_of_below hx (ht.mem_path_iff.mp hy)
    exact (h.inj y p hlive ha he) ▸ hy
  · exact fun hp => ⟨p, hp, rfl⟩

theorem idxOf?_children (h : Renames σ t t') (ht : t.Linked loose) (hp : t.Live p)
    (hx : t.Live x) : (t'.children (σ p)).idxOf? (σ x) = (t.children p).idxOf? x := by
  rw [h.children p hp]
  exact idxOf?_map_of_inj fun c hc => h.inj c x (ht.live_child hc) hx

theorem children_root [DecidableEq H] (h : Renames σ t t') (ht : t.Slotted) (l : Layer) :
    t'.children (Tree.root l) = (t.children (Tree.root l)).map σ := by
  rw [← h.children _ (ht.live_root l), h.root]

theorem position (h : Renames σ t t') (ht : t.Linked loose) (hx : t.Live x) :
    t'.position (σ x) = t.position x := by
  rw [Tree.position, Tree.position, h.parent x hx]
  cases hp : t.parent x with
  | none => rfl
  | some p => exact h.idxOf?_children ht (ht.live_parent hp) hx

/-! ## Downwards -/

theorem descendants (h : Renames σ t t') (ht : t.Linked loose) (ht' : t'.Linked loose')
    (hx : t.Live x) : t'.descendants (σ x) = (t.descendants x).map σ := by
  induction x using ht.children_induction with
  | step x ih =>
    rw [ht'.descendants_eq (h.live hx), ht.descendants_eq hx, h.children x hx, List.flatMap_map,
      List.map_cons, List.map_flatMap]
    exact congrArg (σ x :: ·) (List.flatMap_congr fun c hc => ih c hc (ht.live_child hc))

theorem run (h : Renames σ t t') (ht : t.Linked loose) (ht' : t'.Linked loose')
    (hx : t.Live x) : t'.run (σ x) = (t.run x).map σ := by
  rw [Tree.run, Tree.run, h.descendants ht ht' hx, List.filter_map]
  congr 1
  refine List.filter_congr fun y hy => ?_
  rw [Function.comp_apply, h.handle (ht.live_of_mem_descendants hy)]

variable [DecidableEq H]

theorem order (h : Renames σ t t') (ht : t.Sound loose) (ht' : t'.Sound loose') :
    t'.order = t.order.map σ := by
  rw [Tree.order, Tree.order, List.map_flatMap]
  refine List.flatMap_congr fun l _ => ?_
  rw [← h.run ht.toLinked ht'.toLinked (ht.live_root l), h.root]

/-- The window that stands at a place of the order. -/
theorem handle_order (h : Renames σ t t') (ht : t.Sound loose) (ht' : t'.Sound loose') (k : Nat) :
    t'.order[k]?.bind t'.handle = t.order[k]?.bind t.handle := by
  rw [h.order ht ht', List.getElem?_map]
  cases hk : t.order[k]? with
  | none => rfl
  | some y => exact h.handle (ht.live_of_mem_order (List.mem_of_getElem? hk))

/-- A request names windows, so it does not show which slots they are in. -/
theorem request (h : Renames σ t t') (ht : t.Sound loose) (ht' : t'.Sound loose')
    (hx : t.Live x) : t'.request (σ x) = t.request x := by
  have hrun := h.run ht.toLinked ht'.toLinked hx
  have hmem : ∀ y ∈ t.run x, t.Live y := fun y hy =>
    ht.live_of_mem_descendants (List.mem_of_mem_filter hy)
  have hfirst : ((t'.run (σ x)).head?.bind fun y => t'.order.idxOf? y) =
      (t.run x).head?.bind fun y => t.order.idxOf? y := by
    rw [hrun, h.order ht ht', List.head?_map]
    cases hhead : (t.run x).head? with
    | none => rfl
    | some y =>
      have hy := hmem y (List.mem_of_head? hhead)
      exact idxOf?_map_of_inj fun c hc => h.inj c y (ht.live_of_mem_order hc) hy
  have hlength : (t'.run (σ x)).length = (t.run x).length := by rw [hrun, List.length_map]
  have hwindows : t'.handles (t'.run (σ x)) = t.handles (t.run x) := by
    rw [hrun, h.handles hmem]
  simp only [Tree.request, requestIn, anchorIn, hfirst, hlength, hwindows,
    h.handle_order ht ht']

/-! ## Edits -/

/-- Taking the same family out of both forests. -/
theorem taken {below above below' above' : List NodeId} (h : Renames σ t t')
    (hfrom : Grafts t₀ t p id below above) (hfrom' : Grafts t₀' t' (σ p) (σ id) below' above')
    (ht : t.Sound none) (ht' : t'.Sound none) : Renames σ t₀ t₀' := by
  have ht₀ := hfrom.sound_of_taken ht
  have ht₀' := hfrom'.sound_of_taken ht'
  have hlive : ∀ {x}, t₀.Live x → t.Live x := fun hx => (hfrom.live _).mpr hx
  have hid : t.Live id := live_of_parent hfrom.parent_self
  have hparent : ∀ {s s₀ : Tree H} {p i : NodeId} {below above : List NodeId},
      Grafts s₀ s p i below above → ∀ x, s₀.parent x = if x = i then none else s.parent x := by
    intro s s₀ p i below above hg x
    rw [hg.parent]
    split
    · next hx => rw [hx, hg.parentless]
    · rfl
  refine ⟨h.root, fun x y hx hy => h.inj x y (hlive hx) (hlive hy), fun y hy => ?_, ?_, ?_, ?_⟩
  · obtain ⟨x, hx, he⟩ := h.onto y ((hfrom'.live y).mpr hy)
    exact ⟨x, (hfrom.live x).mp hx, he⟩
  · intro x hx
    rw [← hfrom'.kind, ← hfrom.kind, h.kind x (hlive hx)]
  · intro x hx
    rw [hparent hfrom', hparent hfrom, h.parent x (hlive hx)]
    simp only [h.eq_iff (hlive hx) hid]
    split <;> rfl
  · intro x hx
    rw [hfrom'.children_eq_erase ht₀'.toLinked, hfrom.children_eq_erase ht₀.toLinked,
      h.children x (hlive hx)]
    exact (map_erase_of_inj fun c hc => h.inj c id (ht.live_child hc) hid).symm

omit [DecidableEq H] in
/-- Attaching the same family at the same place of both forests. -/
theorem grafted {q' id' : NodeId} {slot : Nat} (h : Renames σ t₀ t₀')
    (hto : Grafts t₀ t q id ((t₀.children q).take slot) ((t₀.children q).drop slot))
    (hto' : Grafts t₀' t' q' id' ((t₀'.children q').take slot) ((t₀'.children q').drop slot))
    (hq : t₀.Live q) (hid : t₀.Live id) (hq' : σ q = q') (hid' : σ id = id') :
    Renames σ t t' := by
  subst hq' hid'
  have hlive : ∀ {x}, t.Live x → t₀.Live x := fun hx => (hto.live _).mp hx
  refine ⟨h.root, fun x y hx hy => h.inj x y (hlive hx) (hlive hy), fun y hy => ?_, ?_, ?_, ?_⟩
  · obtain ⟨x, hx, he⟩ := h.onto y ((hto'.live y).mp hy)
    exact ⟨x, (hto.live x).mpr hx, he⟩
  · intro x hx
    rw [hto'.kind, hto.kind, h.kind x (hlive hx)]
  · intro x hx
    rw [hto'.parent, hto.parent, h.parent x (hlive hx)]
    simp only [h.eq_iff (hlive hx) hid]
    split <;> rfl
  · intro x hx
    rw [hto'.children, hto.children, h.children x (hlive hx), h.children q hq]
    simp only [h.eq_iff (hlive hx) hq]
    split
    · rw [List.map_append, List.map_cons, List.map_take, List.map_drop]
    · rfl

/-- Moving the same family to the same place of both forests. -/
theorem relocated {p' q' : NodeId} {slot : Nat} (h : Renames σ t t') {u u' : Tree H}
    (hmove : Relocates t u p q id slot) (hmove' : Relocates t' u' p' q' (σ id) slot)
    (ht : t.Sound none) (ht' : t'.Sound none) (hq : t.Live q) (hp' : σ p = p') (hq' : σ q = q') :
    Renames σ u u' := by
  subst hp'
  obtain ⟨t₀, below, above, hfrom, hto⟩ := hmove
  obtain ⟨t₀', below', above', hfrom', hto'⟩ := hmove'
  have hid : t.Live id := live_of_parent hfrom.parent_self
  exact (h.taken hfrom hfrom' ht ht').grafted hto hto' ((hfrom.live q).mp hq)
    ((hfrom.live id).mp hid) hq' rfl

/-- Creating the same window in both forests, in whatever slots. -/
theorem created {w : H} {own : Layer} {id' : NodeId} (h : Renames σ t t')
    (hnew : Creates t t₀ w own id) (hnew' : Creates t' t₀' w own id') (ht : t.Sound none) :
    Renames (Function.update σ id id') t₀ t₀' := by
  -- Old slots keep their names, and the new name is not one of theirs.
  have hne : ∀ {x}, t.Live x → x ≠ id := fun hx he => hnew.fresh (he ▸ hx)
  have hold : ∀ {x}, t.Live x → Function.update σ id id' x = σ x := fun hx =>
    Function.update_of_ne (hne hx) _ _
  have hself : Function.update σ id id' id = id' := Function.update_self id id' σ
  have hne' : ∀ {x}, t.Live x → σ x ≠ id' := fun hx he => hnew'.fresh (he ▸ h.live hx)
  refine ⟨fun l => ?_, fun x y hx hy he => ?_, fun y hy => ?_, fun x hx => ?_, fun x hx => ?_,
    fun x hx => ?_⟩
  · rw [hold (ht.live_root l), h.root]
  · rcases (hnew.live_iff x).mp hx with rfl | hx <;> rcases (hnew.live_iff y).mp hy with rfl | hy
    · rfl
    · rw [hself, hold hy] at he
      exact absurd he.symm (hne' hy)
    · rw [hself, hold hx] at he
      exact absurd he (hne' hx)
    · rw [hold hx, hold hy] at he
      exact h.inj x y hx hy he
  · rcases (hnew'.live_iff y).mp hy with rfl | hy
    · exact ⟨id, (hnew.live_iff id).mpr (.inl rfl), hself⟩
    · obtain ⟨x, hx, rfl⟩ := h.onto y hy
      exact ⟨x, (hnew.live_iff x).mpr (.inr hx), hold hx⟩
  · rcases (hnew.live_iff x).mp hx with rfl | hx
    · rw [hself, hnew'.kind, if_pos rfl, hnew.kind, if_pos rfl]
    · rw [hold hx, hnew'.kind, if_neg (hne' hx), hnew.kind, if_neg (hne hx), h.kind x hx]
  · rw [hnew'.parent, hnew.parent]
    rcases (hnew.live_iff x).mp hx with rfl | hx
    · rw [hself, parent_of_not_live hnew'.fresh, parent_of_not_live hnew.fresh]
      rfl
    · rw [hold hx, h.parent x hx]
      cases hp : t.parent x with
      | none => rfl
      | some p => rw [Option.map_some, Option.map_some, hold (ht.live_parent hp)]
  · rw [hnew'.children, hnew.children]
    rcases (hnew.live_iff x).mp hx with rfl | hx
    · rw [hself, children_of_not_live hnew'.fresh, children_of_not_live hnew.fresh]
      rfl
    · rw [hold hx, h.children x hx]
      exact List.map_congr_left fun c hc => (hold (ht.live_child hc)).symm

/-- Destroying the same window in both forests. -/
theorem destroyed {w w' : H} {below above below' above' : List NodeId} {u u' : Tree H}
    (h : Renames σ t t') (hgone : Destroys t u w p id below above)
    (hgone' : Destroys t' u' w' (σ p) (σ id) below' above') (ht : t.Sound none)
    (ht' : t'.Sound none) (hpar : t.parent id = some p) : Renames σ u u' := by
  have hid : t.Live id := live_of_parent hpar
  have hp : t.Live p := ht.live_parent hpar
  have hlive : ∀ {x}, u.Live x → x ≠ id ∧ t.Live x := fun hx => (hgone.live_iff _).mp hx
  -- The siblings below and above the window are the same, since it is listed once.
  have hsplit : below.map σ ++ σ id :: above.map σ = below' ++ σ id :: above' := by
    rw [← hgone'.split, h.children p hp, hgone.split, List.map_append, List.map_cons]
  obtain ⟨hbelow, habove⟩ : below.map σ = below' ∧ above.map σ = above' := by
    have hnodup := (ht'.nodup_split hgone'.split).1
    have hnodup' := (ht'.nodup_split (hgone'.split.trans hsplit.symm)).1
    rw [List.mem_append, not_or] at hnodup hnodup'
    have hlen := congrArg (List.idxOf? (σ id)) hsplit
    rw [idxOf?_append_cons hnodup'.1, idxOf?_append_cons hnodup.1] at hlen
    obtain ⟨hb, ha⟩ := List.append_inj hsplit (Option.some.inj hlen)
    exact ⟨hb, (List.cons.inj ha).2⟩
  refine ⟨h.root, fun x y hx hy => h.inj x y (hlive hx).2 (hlive hy).2, fun y hy => ?_,
    fun x hx => ?_, fun x hx => ?_, fun x hx => ?_⟩
  · obtain ⟨hne, hy⟩ := (hgone'.live_iff y).mp hy
    obtain ⟨x, hx, rfl⟩ := h.onto y hy
    exact ⟨x, (hgone.live_iff x).mpr ⟨fun he => hne (congrArg σ he), hx⟩, rfl⟩
  all_goals
    obtain ⟨hne, hx⟩ := hlive hx
    have hne' : σ x ≠ σ id := fun he => hne (h.inj x id hx hid he)
  · rw [hgone'.kind, if_neg hne', hgone.kind, if_neg hne, h.kind x hx]
  · have hmem : σ x ∈ t'.children (σ id) ↔ x ∈ t.children id := by
      rw [h.children id hid, List.mem_map]
      constructor
      · rintro ⟨c, hc, he⟩
        exact h.inj c x (ht.live_child hc) hx he ▸ hc
      · exact fun hc => ⟨x, hc, rfl⟩
    rw [hgone'.parent, if_neg hne', hgone.parent, if_neg hne, h.parent x hx]
    simp only [hmem]
    split <;> rfl
  · rw [hgone'.children, if_neg hne', hgone.children, if_neg hne, h.children x hx,
      h.children id hid, ← hbelow, ← habove]
    simp only [h.eq_iff hx hp]
    split
    · rw [List.map_append, List.map_append]
    · rfl

/-- Settling the same family in both forests. -/
theorem settled (h : Renames σ t t') (ht : t.Sound none) (ht' : t'.Sound none) (hid : t.Live id)
    (l : Layer) : Renames σ (Engine.settle t id l) (Engine.settle t' (σ id) l) := by
  have hshape := sameShape_settle t id l
  have hshape' := sameShape_settle t' (σ id) l
  have hlive : ∀ {x}, (Engine.settle t id l).Live x → t.Live x := fun hx => (hshape.live _).mp hx
  refine ⟨h.root, fun x y hx hy => h.inj x y (hlive hx) (hlive hy), fun y hy => ?_, fun x hx => ?_,
    fun x hx => ?_, fun x hx => ?_⟩
  · obtain ⟨x, hx, he⟩ := h.onto y ((hshape'.live y).mp hy)
    exact ⟨x, (hshape.live x).mpr hx, he⟩
  · have hmem : σ x ∈ t'.descendants (σ id) ↔ x ∈ t.descendants id := by
      rw [h.descendants ht.toLinked ht'.toLinked hid, List.mem_map]
      constructor
      · rintro ⟨c, hc, he⟩
        exact h.inj c x (ht.live_of_mem_descendants hc) (hlive hx) he ▸ hc
      · exact fun hc => ⟨x, hc, rfl⟩
    refine kind_congr ?_ ?_ ?_
    · rw [hshape'.handle, hshape.handle, h.handle (hlive hx)]
    · rw [Engine.settle, Engine.settle, home_foldl_setHome, home_foldl_setHome,
        h.home (hlive hx)]
      simp only [hmem]
    · rw [hshape'.layerAt, hshape.layerAt, h.layerAt (hlive hx)]
  · rw [hshape'.parent, hshape.parent, h.parent x (hlive hx)]
  · rw [hshape'.children, hshape.children, h.children x (hlive hx)]

end Renames

end Tree

end ZOrder
