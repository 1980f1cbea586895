/-
  ZOrder.Proofs.Engine.Attached

  The forest as its callers know it: which windows are attached directly to a band or to
  another window, bottom to top. With the permanent bands of the windows, these lists say
  all there is to know about a forest but its slots.

  A move takes one window out of the list it is in and puts it into a list, maybe the
  same one; every other list stays as it is.
-/

import ZOrder.Proofs.Engine.Effect

namespace ZOrder

/-- What windows are attached to: a band, or another window. -/
inductive Holder (H : Type) where
  | band (l : Layer)
  | window (o : H)
  deriving DecidableEq, Repr

/-! ## Windows of a list of siblings -/

namespace Tree

variable {H : Type} {t : Tree H} {ids : List NodeId}

theorem handles_cons {x : NodeId} {w : H} (hx : t.handle x = some w) (ids : List NodeId) :
    t.handles (x :: ids) = w :: t.handles ids :=
  List.filterMap_cons_some hx

/-- Where all nodes are windows, none is left out. -/
theorem map_some_handles (hids : ∀ x ∈ ids, ∃ w, t.handle x = some w) :
    (t.handles ids).map some = ids.map t.handle := by
  induction ids with
  | nil => rfl
  | cons x xs ih =>
    obtain ⟨w, hw⟩ := hids x List.mem_cons_self
    rw [handles_cons hw, List.map_cons, List.map_cons, hw,
      ih fun y hy => hids y (List.mem_cons_of_mem x hy)]

theorem length_handles (hids : ∀ x ∈ ids, ∃ w, t.handle x = some w) :
    (t.handles ids).length = ids.length := by
  simpa using congrArg List.length (map_some_handles hids)

/-- The first of the nodes are the first of the windows. -/
theorem handles_take (hids : ∀ x ∈ ids, ∃ w, t.handle x = some w) (k : Nat) :
    t.handles (ids.take k) = (t.handles ids).take k := by
  refine List.map_injective_iff.mpr (Option.some_injective H) ?_
  rw [map_some_handles fun x hx => hids x (List.mem_of_mem_take hx), List.map_take,
    List.map_take, map_some_handles hids]

theorem handles_drop (hids : ∀ x ∈ ids, ∃ w, t.handle x = some w) (k : Nat) :
    t.handles (ids.drop k) = (t.handles ids).drop k := by
  refine List.map_injective_iff.mpr (Option.some_injective H) ?_
  rw [map_some_handles fun x hx => hids x (List.mem_of_mem_drop hx), List.map_drop,
    List.map_drop, map_some_handles hids]

variable [DecidableEq H]

/-- A window can be left out before or after the nodes are read off. -/
theorem Slotted.handles_erase (h : t.Slotted) {id : NodeId} {w : H} (hid : t.handle id = some w)
    (ids : List NodeId) : t.handles (ids.erase id) = (t.handles ids).erase w := by
  induction ids with
  | nil => rfl
  | cons x xs ih =>
    by_cases hx : x = id
    · rw [hx, List.erase_cons_head, handles_cons hid, List.erase_cons_head]
    · rw [List.erase_cons_tail (by simpa using hx)]
      cases hv : t.handle x with
      | none =>
        have hskip : ∀ ys : List NodeId, t.handles (x :: ys) = t.handles ys := fun ys =>
          List.filterMap_cons_none hv
        rw [hskip, hskip, ih]
      | some v =>
        have hvw : v ≠ w := fun he => hx (h.handle_inj hv (he ▸ hid))
        rw [handles_cons hv, handles_cons hv, List.erase_cons_tail (by simpa using hvw), ih]

/-- A node is found at the same place as its window. -/
theorem Slotted.idxOf_handles (h : t.Slotted) {id : NodeId} {w : H}
    (hids : ∀ x ∈ ids, ∃ v, t.handle x = some v) (hid : t.handle id = some w) :
    (t.handles ids).idxOf w = ids.idxOf id := by
  induction ids with
  | nil => rfl
  | cons x xs ih =>
    obtain ⟨v, hv⟩ := hids x List.mem_cons_self
    rw [handles_cons hv]
    by_cases hx : x = id
    · have hvw : v = w := Option.some.inj (hv.symm.trans (hx ▸ hid))
      rw [hx, hvw, List.idxOf_cons_self, List.idxOf_cons_self]
    · have hvw : v ≠ w := fun he => hx (h.handle_inj hv (he ▸ hid))
      rw [List.idxOf_cons_ne _ hvw, List.idxOf_cons_ne _ hx,
        ih fun y hy => hids y (List.mem_cons_of_mem x hy)]

/-- Children are windows. -/
theorem Sound.handle_of_mem_children {loose : Option NodeId} (h : t.Sound loose) {c p : NodeId}
    (hc : c ∈ t.children p) : ∃ w, t.handle c = some w :=
  h.exists_handle ((h.parent_iff c p).mpr hc)

end Tree

/-! ## Lists of siblings -/

namespace Engine

open ZOrder.Tree (Relocates SameShape root)

variable {H : Type} [DecidableEq H] {e e' : Engine H} {r r' : Holder H} {w : H}

/-- The node that stands for a band or a window. -/
def holderNode (e : Engine H) : Holder H → Option NodeId
  | .band l => some (root l)
  | .window o => e.tree.get o

/-- The windows attached directly to a band or to a window, bottom to top. -/
def attached (e : Engine H) (r : Holder H) : List H :=
  match e.holderNode r with
  | none => []
  | some x => e.tree.handles (e.tree.children x)

theorem attached_of_node {x : NodeId} (hr : e.holderNode r = some x) :
    e.attached r = e.tree.handles (e.tree.children x) := by
  simp only [attached, hr]

theorem attached_band (e : Engine H) (l : Layer) :
    e.attached (.band l) = e.tree.handles (e.tree.children (root l)) := rfl

theorem exists_holderNode (h : e.tree.Sound none) {x : NodeId} (hx : e.tree.Live x) :
    ∃ r, e.holderNode r = some x := by
  rcases hx.layerAt_or_handle with ⟨l, hl⟩ | ⟨o, ho⟩
  · exact ⟨.band l, congrArg some (h.eq_root x l (Tree.layerAt_eq_some_iff.mp hl)).symm⟩
  · exact ⟨.window o, (h.get_iff o x).mpr ho⟩

/-- Different bands and windows have different nodes. -/
theorem holderNode_inj (h : e.tree.Sound none) {x : NodeId} (hr : e.holderNode r = some x)
    (hr' : e.holderNode r' = some x) : r = r' := by
  have hwindow : ∀ {o : H} {l : Layer}, e.tree.get o = some x → root l ≠ x := fun ho hl =>
    h.ne_root ((h.get_iff _ x).mp ho) _ hl.symm
  cases r with
  | band l =>
    cases r' with
    | band l' => rw [Tree.root_injective (Option.some.inj (hr.trans hr'.symm))]
    | window o => exact absurd (Option.some.inj hr) (hwindow hr')
  | window o =>
    cases r' with
    | band l => exact absurd (Option.some.inj hr') (hwindow hr)
    | window o' =>
      exact congrArg Holder.window (Option.some.inj
        (((h.get_iff o x).mp hr).symm.trans ((h.get_iff o' x).mp hr')))

theorem mem_attached_iff (h : e.tree.Sound none) :
    w ∈ e.attached r ↔ ∃ x y, e.holderNode r = some x ∧ e.tree.get w = some y ∧
      e.tree.parent y = some x := by
  constructor
  · intro hw
    cases hr : e.holderNode r with
    | none => simp [attached, hr] at hw
    | some x =>
      rw [attached_of_node hr, Tree.mem_handles] at hw
      obtain ⟨y, hy, hyw⟩ := hw
      exact ⟨x, y, rfl, (h.get_iff w y).mpr hyw, (h.parent_iff y x).mpr hy⟩
  · rintro ⟨x, y, hr, hget, hpar⟩
    rw [attached_of_node hr, Tree.mem_handles]
    exact ⟨y, (h.parent_iff y x).mp hpar, (h.get_iff w y).mp hget⟩

/-- A window is attached in one place only. -/
theorem holder_unique (h : e.tree.Sound none) (hr : w ∈ e.attached r) (hr' : w ∈ e.attached r') :
    r = r' := by
  obtain ⟨x, y, hx, hy, hp⟩ := (mem_attached_iff h).mp hr
  obtain ⟨x', y', hx', hy', hp'⟩ := (mem_attached_iff h).mp hr'
  obtain rfl := Option.some.inj (hy.symm.trans hy')
  obtain rfl := Option.some.inj (hp.symm.trans hp')
  exact holderNode_inj h hx hx'

theorem erase_attached (h : e.tree.Sound none) (hr : w ∈ e.attached r) (hne : r' ≠ r) :
    (e.attached r').erase w = e.attached r' :=
  List.erase_of_not_mem fun hr' => hne (holder_unique h hr' hr)

theorem nodup_attached (h : e.tree.Sound none) (r : Holder H) : (e.attached r).Nodup := by
  cases hr : e.holderNode r with
  | none => simp [attached, hr]
  | some x =>
    rw [attached_of_node hr]
    exact h.nodup_handles (h.children_nodup x)

/-- The list that an attached window is in. -/
theorem exists_attached (h : e.tree.Sound none) {x y : NodeId} (hget : e.tree.get w = some y)
    (hpar : e.tree.parent y = some x) : ∃ r, e.holderNode r = some x ∧ w ∈ e.attached r := by
  obtain ⟨r, hr⟩ := exists_holderNode h (h.live_parent hpar)
  exact ⟨r, hr, (mem_attached_iff h).mpr ⟨x, y, hr, hget, hpar⟩⟩

/-- A tracked window hangs somewhere. -/
theorem exists_holder (h : e.tree.Sound none) (hw : e.isStacked w = true) :
    ∃ r, w ∈ e.attached r := by
  obtain ⟨x, hx⟩ := isStacked_iff_get.mp hw
  obtain ⟨p, hp⟩ := h.exists_parent ((h.get_iff w x).mp hx)
  obtain ⟨r, -, hr⟩ := exists_attached h hx hp
  exact ⟨r, hr⟩

/-! ## Moves -/

section

variable {t' : Tree H} {p p' id : NodeId} {slot : Nat}

theorem holderNode_congr (hget : ∀ v, e'.tree.get v = e.tree.get v) (r : Holder H) :
    e'.holderNode r = e.holderNode r := by
  cases r with
  | band l => rfl
  | window o => exact hget o

theorem get_of_relocates (hmove : Relocates e.tree t' p p' id slot)
    (hshape : SameShape t' e'.tree) (v : H) : e'.tree.get v = e.tree.get v :=
  (congrArg (·.find? v) hshape.index).trans (hmove.sameNodes.get v)

omit [DecidableEq H] in
/-- The windows of some nodes are the same after a move. -/
theorem handles_of_relocates (hmove : Relocates e.tree t' p p' id slot)
    (hshape : SameShape t' e'.tree) (ids : List NodeId) :
    e'.tree.handles ids = e.tree.handles ids :=
  Tree.handles_congr (fun x => (hshape.handle x).trans (hmove.sameNodes.handle x)) ids

/-- A window that moves is put into the list that it moves to, which it may have been in. -/
theorem attached_target (h : e.tree.Sound none) (hmove : Relocates e.tree t' p p' id slot)
    (hshape : SameShape t' e'.tree) (hw : e.tree.handle id = some w)
    (hr : e.holderNode r = some p') :
    e'.attached r =
      ((e.attached r).erase w).take slot ++ w :: ((e.attached r).erase w).drop slot := by
  have hr' : e'.holderNode r = some p' :=
    (holderNode_congr (get_of_relocates hmove hshape) r).trans hr
  have hwindows : ∀ x ∈ (e.tree.children p').erase id, ∃ v, e.tree.handle x = some v := fun x hx =>
    h.handle_of_mem_children (List.mem_of_mem_erase hx)
  rw [attached_of_node hr', attached_of_node hr, handles_of_relocates hmove hshape,
    hshape.children, hmove.children h, if_pos rfl, Tree.handles_append, Tree.handles_cons hw,
    Tree.handles_take hwindows, Tree.handles_drop hwindows, h.handles_erase hw]

/-- Every other list is as it was without the window. -/
theorem attached_other (h : e.tree.Sound none) (hmove : Relocates e.tree t' p p' id slot)
    (hshape : SameShape t' e'.tree) (hw : e.tree.handle id = some w)
    (hr : e.holderNode r = some p') (hne : r' ≠ r) : e'.attached r' = (e.attached r').erase w := by
  have hr' := holderNode_congr (get_of_relocates hmove hshape) r'
  cases hx : e.holderNode r' with
  | none => simp [attached, hr', hx]
  | some x =>
    have hxp : x ≠ p' := fun he => hne (holderNode_inj h hx (he ▸ hr))
    rw [attached_of_node (hr'.trans hx), attached_of_node hx, handles_of_relocates hmove hshape,
      hshape.children, hmove.children h, if_neg hxp, h.handles_erase hw]

end

/-- Where windows hang does not matter for their permanent bands. -/
theorem homeOf_of_sameNodes (hnodes : Tree.SameNodes e.tree e'.tree) (v : H) :
    e'.homeOf v = e.homeOf v := by
  rw [homeOf, homeOf, hnodes.get]
  exact Option.bind_congr fun x _ => hnodes.home x

end Engine

end ZOrder
