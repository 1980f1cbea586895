/-
  ZOrder.Proofs.Engine.Neighbours

  The windows directly above and directly below a window among its siblings. Both look the
  window up in the list that it is in, and go one place up or down; so one undoes the other.
  The block of the window stands between the window and the sibling above it, and reaches
  the end of what their holder holds where there is no such sibling.
-/

import ZOrder.Proofs.Engine.Blocks

namespace ZOrder.Engine

variable {H : Type} [DecidableEq H] {e : Engine H} {r : Holder H} {a b v : H}
  {below above : List H}

/-! ## Places in a list of siblings -/

/-- The neighbours of a window are those in the list of the windows attached where it is. -/
theorem neighbours_of_split (h : e.tree.Sound none) (hsplit : e.attached r = below ++ a :: above) :
    e.siblingAbove a = above.head? ∧ e.siblingBelow a = below.getLast? := by
  obtain ⟨p, id, hr, hget, hpar⟩ := (mem_attached_iff h).mp (show a ∈ e.attached r by simp [hsplit])
  obtain ⟨lower, upper, hcs, hlower, hupper⟩ := h.exists_split hpar
  have hpos := Tree.position_eq_of_split hpar hcs hlower
  have hwindows : ∀ x ∈ lower ++ upper, ∃ w, e.tree.handle x = some w := fun x hx =>
    h.handle_of_mem_children (p := p) (by rw [hcs]; simp at hx ⊢; tauto)
  -- The window is in its list once, so the nodes are cut where the windows are.
  obtain ⟨rfl, rfl⟩ : e.tree.handles lower = below ∧ e.tree.handles upper = above := by
    have hlist := hsplit
    rw [attached_of_node hr, hcs, Tree.handles_append,
      Tree.handles_cons ((h.get_iff a id).mp hget)] at hlist
    have hnodup := nodup_attached h r
    rw [hsplit, List.nodup_middle, List.nodup_cons, List.mem_append, not_or] at hnodup
    obtain ⟨hx, -, hy⟩ :=
      (List.append_cons_inj_of_notMem hnodup.1.1 hnodup.1.2).mp hlist.symm
    exact ⟨hx.symm, hy.symm⟩
  constructor
  · simp only [siblingAbove, hget, hpar, hpos, hcs, Option.bind_eq_bind, Option.bind_some]
    rw [List.getElem?_append_right (Nat.le_add_right _ 1), Nat.add_sub_cancel_left,
      List.getElem?_cons_succ, ← List.head?_eq_getElem?]
    cases upper with
    | nil => rfl
    | cons y ys =>
      obtain ⟨w, hw⟩ := hwindows y (by simp)
      rw [List.head?_cons, Option.bind_some, hw, Tree.handles_cons hw, List.head?_cons]
  · simp only [siblingBelow, hget, hpar, hpos, hcs, Option.bind_eq_bind, Option.bind_some]
    rcases List.eq_nil_or_concat lower with rfl | ⟨ys, y, rfl⟩
    · rfl
    · obtain ⟨w, hw⟩ := hwindows y (by simp)
      simp [Tree.handles, hw]

theorem siblingAbove_eq_some_iff (h : e.tree.Sound none) :
    e.siblingAbove a = some b ↔ ∃ r below above, e.attached r = below ++ a :: b :: above := by
  constructor
  · intro hb
    obtain ⟨x, hx, -⟩ := Option.bind_eq_some_iff.mp hb
    obtain ⟨r, hr⟩ := exists_holder h (isStacked_iff_get.mpr ⟨x, hx⟩)
    obtain ⟨below, above, hsplit⟩ := List.append_of_mem hr
    rw [(neighbours_of_split h hsplit).1] at hb
    obtain ⟨rest, rfl⟩ := List.head?_eq_some_iff.mp hb
    exact ⟨r, below, rest, hsplit⟩
  · rintro ⟨r, below, above, hsplit⟩
    exact (neighbours_of_split h hsplit).1

theorem siblingBelow_eq_some_iff (h : e.tree.Sound none) :
    e.siblingBelow b = some a ↔ ∃ r below above, e.attached r = below ++ a :: b :: above := by
  constructor
  · intro ha
    obtain ⟨x, hx, -⟩ := Option.bind_eq_some_iff.mp ha
    obtain ⟨r, hr⟩ := exists_holder h (isStacked_iff_get.mpr ⟨x, hx⟩)
    obtain ⟨below, above, hsplit⟩ := List.append_of_mem hr
    rw [(neighbours_of_split h hsplit).2] at ha
    obtain ⟨rest, rfl⟩ := List.getLast?_eq_some_iff.mp ha
    exact ⟨r, rest, above, by simpa using hsplit⟩
  · rintro ⟨r, below, above, hsplit⟩
    have hsplit' : e.attached r = (below ++ [a]) ++ b :: above := by simpa using hsplit
    rw [(neighbours_of_split h hsplit').2, List.getLast?_concat]

/-- Siblings are drawn in one band. -/
theorem layerOf_eq_of_attached (h : e.tree.Sound none) (ha : a ∈ e.attached r)
    (hb : b ∈ e.attached r) : ∃ l, e.layerOf a = some l ∧ e.layerOf b = some l := by
  obtain ⟨p, x, hr, hx, hpx⟩ := (mem_attached_iff h).mp ha
  obtain ⟨p', y, hr', hy, hpy⟩ := (mem_attached_iff h).mp hb
  obtain rfl := Option.some.inj (hr.symm.trans hr')
  obtain ⟨l, hl⟩ := h.exists_root (h.live_parent hpx)
  exact ⟨l, layerOf_of_below h hx (.of_parent hpx hl), layerOf_of_below h hy (.of_parent hpy hl)⟩

/-! ## Blocks of neighbours -/

/-- Between a window and the sibling above it stand the windows nested below it. -/
theorem exists_between_neighbours (h : e.tree.Sound none)
    (hsplit : e.attached r = below ++ a :: b :: above) :
    ∃ before nested after, e.zOrder = before ++ a :: nested ++ b :: after ∧
      ∀ v, v ∈ nested ↔ e.Nests a v := by
  obtain ⟨p, x, hr, hx, -⟩ := (mem_attached_iff h).mp (show a ∈ e.attached r by simp [hsplit])
  obtain ⟨-, y, -, hy, -⟩ := (mem_attached_iff h).mp (show b ∈ e.attached r by simp [hsplit])
  obtain ⟨before, after, hblock⟩ := block_infix_zOrder h hr
  rw [block_split h hr hsplit, List.flatMap_cons, block_window h hx, block_window h hy] at hblock
  exact ⟨before ++ (r.own ++ below.flatMap fun v => e.block (.window v)), e.nestedBlocks a,
    e.nestedBlocks b ++ (above.flatMap fun v => e.block (.window v)) ++ after,
    by simp [← hblock], fun v => mem_nestedBlocks_iff h hx⟩

/-- The last sibling is the one whose block ends what their holder holds. -/
theorem siblingAbove_eq_none_iff (h : e.tree.Sound none) (ha : a ∈ e.attached r) :
    e.siblingAbove a = none ↔ e.block (.window a) <:+ e.block r := by
  obtain ⟨p, x, hr, hx, -⟩ := (mem_attached_iff h).mp ha
  obtain ⟨below, above, hsplit⟩ := List.append_of_mem ha
  have hblock := block_split h hr hsplit
  rw [(neighbours_of_split h hsplit).1, List.head?_eq_none_iff]
  constructor
  · rintro rfl
    rw [hblock, List.flatMap_nil, List.append_nil]
    exact List.suffix_append _ _
  · intro hsuffix
    cases above with
    | nil => rfl
    | cons b above =>
      obtain ⟨-, y, -, hy, -⟩ := (mem_attached_iff h).mp (show b ∈ e.attached r by simp [hsplit])
      have hnodup := nodup_block h hr
      rw [hblock] at hnodup hsuffix
      obtain ⟨-, habove, -⟩ := disjoint_of_nodup_block hnodup
      -- Both what is above and the block would end the list, so they would share a window.
      have hrest : b ∈ (b :: above).flatMap fun v => e.block (.window v) := by
        rw [List.flatMap_cons, block_window h hy]
        exact List.mem_append_left _ List.mem_cons_self
      have hself : a ∈ e.block (.window a) := by
        rw [block_window h hx]
        exact List.mem_cons_self
      rcases List.suffix_or_suffix_of_suffix hsuffix (List.suffix_append _ _) with hsub | hsub
      · exact absurd hself (habove (hsub.subset hself))
      · exact absurd (hsub.subset hrest) (habove hrest)

/-- The windows above and below a window among its siblings: each undoes the other. Both are
attached in one place and drawn in one band, with just the windows nested below the lower one
between them. The last one has nothing above its block in what their holder holds. -/
theorem neighbours_match_order (h : Reachable e) :
    (∀ a b, e.siblingAbove a = some b ↔ e.siblingBelow b = some a) ∧
    (∀ a b, e.siblingAbove a = some b →
      (∃ r, a ∈ e.attached r ∧ b ∈ e.attached r) ∧
      (∃ l, e.layerOf a = some l ∧ e.layerOf b = some l) ∧
      ∃ before nested after, e.zOrder = before ++ a :: nested ++ b :: after ∧
        ∀ v, v ∈ nested ↔ e.Nests a v) ∧
    ∀ a, e.isStacked a = true →
      ∃ r, a ∈ e.attached r ∧ (e.siblingAbove a = none ↔ e.block (.window a) <:+ e.block r) := by
  have hs := h.sound
  refine ⟨fun a b => ?_, fun a b hb => ?_, fun a ha => ?_⟩
  · rw [siblingAbove_eq_some_iff hs, siblingBelow_eq_some_iff hs]
  · obtain ⟨r, below, above, hsplit⟩ := (siblingAbove_eq_some_iff hs).mp hb
    have ha : a ∈ e.attached r := by simp [hsplit]
    have hb : b ∈ e.attached r := by simp [hsplit]
    exact ⟨⟨r, ha, hb⟩, layerOf_eq_of_attached hs ha hb, exists_between_neighbours hs hsplit⟩
  · obtain ⟨r, hr⟩ := exists_holder hs ha
    exact ⟨r, hr, siblingAbove_eq_none_iff hs hr⟩

/-- The dialogs 2 and 4 of window 1 are neighbours, with 3, a dialog of 2, between them in the
order; 4 ends the block of 1, though 5 is above it on the screen. -/
theorem neighbours_match_order_of_dialogs :
    ∃ e : Engine Nat, e.Reachable ∧ e.zOrder = [1, 2, 3, 4, 5] ∧
      e.siblingAbove 2 = some 4 ∧ e.siblingBelow 4 = some 2 ∧
      (∃ before nested after, e.zOrder = before ++ 2 :: nested ++ 4 :: after ∧
        ∀ v, v ∈ nested ↔ e.Nests 2 v) ∧
      e.siblingAbove 4 = none ∧ e.block (.window 4) <:+ e.block (.window 1) := by
  let dialogOf (o : Nat) : Query Nat := { Query.blank with owner := fun _ => some o }
  have hreach : Reachable ((ofSettings {}).performAll [(.blank, .add 1), (dialogOf 1, .add 2),
      (dialogOf 2, .add 3), (dialogOf 1, .add 4), (.blank, .add 5)]) :=
    .performAll (.start {}) _
  obtain ⟨hinverse, hbetween, hlast⟩ := neighbours_match_order hreach
  obtain ⟨r, hr, hiff⟩ := hlast 4 (by decide)
  obtain rfl := holder_unique hreach.sound (r := .window 1) (by decide) hr
  exact ⟨_, hreach, by decide, by decide, (hinverse 2 4).mp (by decide),
    (hbetween 2 4 (by decide)).2.2, by decide, hiff.mp (by decide)⟩

end ZOrder.Engine
