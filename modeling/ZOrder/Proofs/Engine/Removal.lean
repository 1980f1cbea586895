/-
  ZOrder.Proofs.Engine.Removal

  Windows that are removed. In the list where a removed window hung, the windows attached
  to it stand in its place, in their order. No other list changes, and neither does the
  band or the permanent band of any other window. A window comes right before the windows
  nested under it, so in the order of the screen it is missing and nothing has moved.

  The one request lists what is left of the family or band that the window hung in.
-/

import ZOrder.Proofs.Engine.Anchors
import ZOrder.Proofs.Engine.Attached
import ZOrder.Proofs.Engine.Homes

namespace ZOrder

namespace Tree

variable {H : Type} [DecidableEq H] {t t' : Tree H} {w : H} {p id x y : NodeId}
  {below above : List NodeId}

/-- Once a window is gone, the other nodes lie below each other as before. -/
theorem Destroys.below_iff (h : Destroys t t' w p id below above) (ht : t.Linked none)
    (ht' : t'.Linked none) (hpar : t.parent id = some p) (hx : t'.Live x) (hy : y ≠ id) :
    t'.Below x y ↔ t.Below x y := by
  obtain ⟨hxid, hlive⟩ := (h.live_iff x).mp hx
  have hmem : y ∈ t'.descendants x ↔ y ∈ t.descendants x := by
    rw [h.descendants_eq_filter ht ht' hpar hxid, List.mem_filter]
    exact and_iff_left (by simpa using hy)
  rwa [ht'.mem_descendants, ht.mem_descendants, and_iff_right hx, and_iff_right hlive] at hmem

theorem Destroys.layerOf (h : Destroys t t' w p id below above) (ht : t.Sound none)
    (ht' : t'.Sound none) (hpar : t.parent id = some p) (hy : y ≠ id) :
    t'.layerOf y = t.layerOf y := by
  ext l
  rw [ht'.layerOf_eq_some_iff, ht.layerOf_eq_some_iff,
    h.below_iff ht.toLinked ht'.toLinked hpar (ht'.live_root l) hy]

/-- The window is not among its own siblings, nor among the windows attached to it. -/
theorem Destroys.notMem (h : Destroys t t' w p id below above) (ht : t.Linked none)
    (hpar : t.parent id = some p) : id ∉ below ∧ id ∉ above ∧ id ∉ t.children id := by
  obtain ⟨hbelow, habove⟩ := not_or.mp (List.mem_append.not.mp (ht.nodup_split h.split).1)
  refine ⟨hbelow, habove, fun hmem => ?_⟩
  rw [← ht.parent_iff, hpar] at hmem
  exact ht.parent_ne hpar (Option.some.inj hmem)

end Tree

namespace Engine

open ZOrder.Tree (Destroys root)

variable {H : Type} [DecidableEq H] {e e' : Engine H} {r r' : Holder H} {v w : H}

/-- The window `v` is drawn in the band, or is the window that holds or is nested under it. -/
def Holds (e : Engine H) : Holder H → H → Prop
  | .band l, v => e.layerOf v = some l
  | .window o, v => v = o ∨ e.Nests o v

/-- What a band or a window holds lies below its node. -/
theorem holds_iff (h : e.tree.Sound none) {x y : NodeId} (hr : e.holderNode r = some x)
    (hv : e.tree.get v = some y) : e.Holds r v ↔ e.tree.Below x y := by
  cases r with
  | band l =>
    obtain rfl : root l = x := Option.some.inj hr
    rw [Holds, layerOf, hv, Option.bind_some, h.layerOf_eq_some_iff]
  | window o => exact (below_iff_nests h hr hv).symm

/-- Only tracked windows are held. -/
theorem Holds.exists_get (hheld : e.Holds r v) (h : e.tree.Sound none) {x : NodeId}
    (hr : e.holderNode r = some x) : ∃ y, e.tree.get v = some y := by
  cases r with
  | band l => exact isStacked_iff_get.mp (isStacked_of_layerOf hheld)
  | window o =>
    rcases hheld with rfl | hnests
    · exact ⟨x, hr⟩
    · obtain ⟨-, y, -, hy, -⟩ := (nests_iff h).mp hnests
      exact ⟨y, hy⟩

/-- From `e` to `e'`, the window `w` has gone from the list of `r`, and nothing else has
moved. -/
structure Vacates (e e' : Engine H) (r : Holder H) (w : H) : Prop where
  /-- The windows attached to the one that goes take its place. -/
  siblings : ∃ below above, e.attached r = below ++ w :: above ∧
    e'.attached r = below ++ e.attached (.window w) ++ above
  own : e'.attached (.window w) = []
  others : ∀ r', r' ≠ r → r' ≠ .window w → e'.attached r' = e.attached r'
  isStacked : ∀ v, e'.isStacked v = true ↔ v ≠ w ∧ e.isStacked v = true
  layerOf : ∀ v, v ≠ w → e'.layerOf v = e.layerOf v
  homeOf : ∀ v, v ≠ w → e'.homeOf v = e.homeOf v
  zOrder : e'.zOrder = e.zOrder.erase w

/-! ## A window that is destroyed -/

section

variable {p id : NodeId} {below above : List NodeId}
  (hgone : Destroys e.tree e'.tree w p id below above)

include hgone

theorem get_of_destroys (v : H) :
    e'.tree.get v = if v = w then none else e.tree.get v := by
  rw [Tree.get, Tree.get, hgone.index]
  split
  · next hv => rw [hv, Index.find?_erase_self]
  · next hv => exact Index.find?_erase_of_ne _ hv

theorem holderNode_of_destroys (hr : r ≠ .window w) : e'.holderNode r = e.holderNode r := by
  cases r with
  | band l => rfl
  | window o =>
    have ho : o ≠ w := fun he => hr (congrArg Holder.window he)
    exact (get_of_destroys hgone o).trans (if_neg ho)

theorem handles_of_destroys {ids : List NodeId} (hids : id ∉ ids) :
    e'.tree.handles ids = e.tree.handles ids := by
  refine List.filterMap_congr fun x hx => ?_
  rw [hgone.handle, if_neg (ne_of_mem_of_not_mem hx hids)]

theorem attached_of_untracked : e'.attached (.window w) = [] := by
  simp [attached, holderNode, get_of_destroys hgone]

/-- In the list that the window was in, the windows attached to it stand in its place. -/
theorem attached_vacated (h : e.tree.Sound none) (hget : e.tree.get w = some id)
    (hpar : e.tree.parent id = some p) (hr : e.holderNode r = some p) :
    e.attached r = e.tree.handles below ++ w :: e.tree.handles above ∧
      e'.attached r =
        e.tree.handles below ++ e.attached (.window w) ++ e.tree.handles above := by
  obtain ⟨hbelow, habove, hown⟩ := hgone.notMem h.toLinked hpar
  have hp : p ≠ id := h.parent_ne hpar
  have hne : r ≠ .window w := by
    rintro rfl
    exact hp (Option.some.inj (hr.symm.trans hget))
  have hlist : e.attached (.window w) = e.tree.handles (e.tree.children id) :=
    attached_of_node (r := .window w) hget
  constructor
  · rw [attached_of_node hr, hgone.split, Tree.handles_append,
      Tree.handles_cons ((h.get_iff w id).mp hget)]
  · rw [attached_of_node ((holderNode_of_destroys hgone hne).trans hr), hgone.children,
      if_neg hp, if_pos rfl, Tree.handles_append, Tree.handles_append,
      handles_of_destroys hgone hbelow, handles_of_destroys hgone hown,
      handles_of_destroys hgone habove, hlist]

/-- Every other list is as it was. -/
theorem attached_unvacated (h : e.tree.Sound none) (hget : e.tree.get w = some id)
    (hpar : e.tree.parent id = some p) (hr : e.holderNode r = some p) (hne : r' ≠ r)
    (hown : r' ≠ .window w) : e'.attached r' = e.attached r' := by
  have hnode := holderNode_of_destroys hgone hown
  cases hx : e.holderNode r' with
  | none => simp [attached, hnode, hx]
  | some x =>
    have hxp : x ≠ p := fun he => hne (holderNode_inj h hx (he ▸ hr))
    have hself : e.holderNode (.window w) = some id := hget
    have hxid : x ≠ id := fun he => hown (holderNode_inj h hx (he ▸ hself))
    -- The window hung in one list only.
    have hid : id ∉ e.tree.children x := by
      rw [← h.parent_iff, hpar]
      exact fun he => hxp (Option.some.inj he).symm
    rw [attached_of_node (hnode.trans hx), attached_of_node hx, hgone.children, if_neg hxid,
      if_neg hxp, handles_of_destroys hgone hid]

theorem isStacked_of_destroys (v : H) :
    e'.isStacked v = true ↔ v ≠ w ∧ e.isStacked v = true := by
  rw [isStacked_iff_get, isStacked_iff_get, get_of_destroys hgone]
  split
  · next hv => simp [hv]
  · next hv => simp [hv]

/-- A tracked window other than the one that goes is in another slot, and stays there. -/
theorem get_of_survivor (h : e.tree.Sound none) (hget : e.tree.get w = some id) (hv : v ≠ w)
    {y : NodeId} (hy : e.tree.get v = some y) : e'.tree.get v = some y ∧ y ≠ id := by
  refine ⟨(get_of_destroys hgone v).trans ((if_neg hv).trans hy), ?_⟩
  rintro rfl
  rw [h.get_iff] at hget hy
  exact hv (Option.some.inj (hy.symm.trans hget))

/-- The window goes from the list of its holder. -/
theorem vacates_of_destroys (h : e.tree.Sound none) (h' : e'.tree.Sound none)
    (hget : e.tree.get w = some id) (hpar : e.tree.parent id = some p)
    (hr : e.holderNode r = some p) : Vacates e e' r w := by
  have hsame : ∀ v, v ≠ w → e.tree.get v = none → e'.tree.get v = none := fun v hv hnone =>
    (get_of_destroys hgone v).trans ((if_neg hv).trans hnone)
  refine ⟨⟨_, _, attached_vacated hgone h hget hpar hr⟩, attached_of_untracked hgone,
    fun r' hne hown => attached_unvacated hgone h hget hpar hr hne hown,
    isStacked_of_destroys hgone, fun v hv => ?_, fun v hv => ?_, ?_⟩
  · cases hy : e.tree.get v with
    | none => simp only [Engine.layerOf, hy, hsame v hv hy, Option.bind_none]
    | some y =>
      obtain ⟨hy', hne⟩ := get_of_survivor hgone h hget hv hy
      rw [Engine.layerOf, Engine.layerOf, hy, hy', Option.bind_some, Option.bind_some,
        hgone.layerOf h h' hpar hne]
  · cases hy : e.tree.get v with
    | none => simp only [Engine.homeOf, hy, hsame v hv hy, Option.bind_none]
    | some y =>
      obtain ⟨hy', hne⟩ := get_of_survivor hgone h hget hv hy
      rw [homeOf_of_get hy, homeOf_of_get hy', hgone.home, if_neg hne]
  · have hnodup : e.zOrder.Nodup := h.nodup_zOrder
    rw [hnodup.erase_eq_filter]
    refine (hgone.windows_eq_filter h h' ((h.get_iff w id).mp hget) hpar).trans ?_
    refine List.filter_congr fun v _ => ?_
    by_cases hv : v = w <;> simp [hv]

/-- The request for the holder lists what it still holds. -/
theorem mem_request_of_destroys (h : e.tree.Sound none) (h' : e'.tree.Sound none)
    (hget : e.tree.get w = some id) (hpar : e.tree.parent id = some p)
    (hr : e.holderNode r = some p) (v : H) :
    v ∈ (e'.tree.request p).windows ↔ v ≠ w ∧ e.Holds r v := by
  have hp : e'.tree.Live p :=
    (hgone.live_iff p).mpr ⟨h.parent_ne hpar, h.live_parent hpar⟩
  rw [Tree.request_windows, Tree.mem_handles]
  constructor
  · rintro ⟨y, hy, hv⟩
    have hget' := (h'.get_iff v y).mpr hv
    have hvw : v ≠ w := by
      rintro rfl
      rw [get_of_destroys hgone, if_pos rfl] at hget'
      cases hget'
    rw [get_of_destroys hgone, if_neg hvw] at hget'
    have hne := (get_of_survivor hgone h hget hvw hget').2
    exact ⟨hvw, (holds_iff h hr hget').mpr
      ((hgone.below_iff h.toLinked h'.toLinked hpar hp hne).mp (h'.mem_run.mp hy).2.1)⟩
  · rintro ⟨hvw, hheld⟩
    obtain ⟨y, hy⟩ := hheld.exists_get h hr
    obtain ⟨hy', hne⟩ := get_of_survivor hgone h hget hvw hy
    have hv := (h'.get_iff v y).mp hy'
    have hbelow := (hgone.below_iff h.toLinked h'.toLinked hpar hp hne).mpr
      ((holds_iff h hr hy).mp hheld)
    exact ⟨y, h'.mem_run.mpr ⟨hp, hbelow, v, hv⟩, hv⟩

end

/-! ## Removals -/

theorem get_remove (h : e.tree.Sound none) (v w : H) :
    (e.remove v).2.tree.get w = if w = v then none else e.tree.get w := by
  cases hget : e.tree.get v with
  | none =>
    rw [remove_of_untracked hget]
    split
    · next hw => rw [hw, hget]
    · rfl
  | some id =>
    obtain ⟨p, below, above, t', -, hgone, -, heq⟩ := remove_eq h hget
    have hgone : Destroys e.tree ({ e with tree := t' }.sync [p]).tree v p id below above := hgone
    rw [heq]
    exact get_of_destroys hgone w

/-- A tracked window that is removed leaves its place to the windows attached to it, and
nothing else changes. The one request lists the other windows that its holder held, as they
stand in the order of the screen. -/
theorem removal_deletes_window (h : Reachable e) (q : Query H) (hw : e.isStacked w = true) :
    ∃ r e' request, w ∈ e.attached r ∧ e.perform q (.remove w) = (true, e') ∧
      Vacates e e' r w ∧ e'.queue = e.queue ++ [request] ∧
      (∀ v, v ∈ request.windows ↔ v ≠ w ∧ e.Holds r v) ∧
      ∃ i j, request.FitsAt e'.zOrder i j := by
  have hs := h.sound
  obtain ⟨id, hget⟩ := isStacked_iff_get.mp hw
  obtain ⟨p, below, above, t', hpar, hgone, ht', heq⟩ := remove_eq hs hget
  obtain ⟨r, hr, hmem⟩ := exists_attached hs hget hpar
  let e' : Engine H := { e with tree := t' }.sync [p]
  have hgone : Destroys e.tree e'.tree w p id below above := hgone
  exact ⟨r, e', t'.request p, hmem, heq, vacates_of_destroys hgone hs ht' hget hpar hr, rfl,
    mem_request_of_destroys hgone hs ht' hget hpar hr, ht'.fitsAt_request p⟩

/-- The window 3 is attached to 1, between 2 and 4, and has two windows attached to itself. -/
theorem removal_deletes_window_of_dialog :
    ∃ e : Engine Nat, e.Reachable ∧ e.isStacked 3 = true ∧ e.attached (.window 1) = [2, 3, 4] ∧
      e.attached (.window 3) = [5, 6] ∧ e.zOrder = [1, 2, 3, 5, 6, 4] ∧
      (e.perform .blank (.remove 3)).2.attached (.window 1) = [2, 5, 6, 4] ∧
      ∃ r e' request, 3 ∈ e.attached r ∧ e.perform .blank (.remove 3) = (true, e') ∧
        Vacates e e' r 3 ∧ e'.queue = e.queue ++ [request] ∧
        (∀ v, v ∈ request.windows ↔ v ≠ 3 ∧ e.Holds r v) ∧
        ∃ i j, request.FitsAt e'.zOrder i j := by
  let dialogOf (o : Nat) : Query Nat := { Query.blank with owner := fun _ => some o }
  have hreach : Reachable ((ofSettings {}).performAll [(.blank, .add 1), (dialogOf 1, .add 2),
      (dialogOf 1, .add 3), (dialogOf 1, .add 4), (dialogOf 3, .add 5), (dialogOf 3, .add 6)]) :=
    .performAll (.start {}) _
  exact ⟨_, hreach, by decide, by decide, by decide, by decide, by decide,
    removal_deletes_window hreach .blank (by decide)⟩

end Engine

end ZOrder
