/-
  ZOrder.Proofs.Engine.Drift

  Windows that move up and then down again, or down and then up. On its way a window skips
  the siblings that do not count; on the way back the sibling that it passed is directly
  next to it, so it goes no further than that one. The siblings that it skipped stay behind
  it.

  Around a window its siblings are a zipper: those behind the window and those ahead of it,
  nearest first on both sides.
-/

import ZOrder.Proofs.Engine.Passing

namespace ZOrder.Engine

/-! ## Siblings around one of them -/

namespace Direction

/-- The other direction. -/
def flip : Direction → Direction
  | .up => .down
  | .down => .up

variable {α : Type} {a : α} {behind ahead siblings : List α}

/-- The list, bottom to top, of what is behind some place and what is ahead of it, nearest
first. -/
def row (d : Direction) (behind ahead : List α) : List α :=
  match d with
  | .up => behind.reverse ++ ahead
  | .down => ahead.reverse ++ behind

/-- What is just ahead of a place is just behind the next one. -/
theorem row_append (d : Direction) (behind skipped ahead : List α) :
    d.row behind (skipped ++ ahead) = d.row (skipped.reverse ++ behind) ahead := by
  cases d <;> simp [row]

/-- Around one member, a list reads the same in both directions. -/
theorem row_turn (d : Direction) (a : α) (behind ahead : List α) :
    d.row behind (a :: ahead) = d.flip.row ahead (a :: behind) := by
  cases d <;> simp [row, flip]

theorem filter_row (d : Direction) (p : α → Bool) (behind ahead : List α) :
    (d.row behind ahead).filter p = d.row (behind.filter p) (ahead.filter p) := by
  cases d <;> simp [row, List.filter_reverse]

/-- Cut at a member, a list is what is on either side of it. -/
theorem exists_pair (d : Direction) (a t : α) (behind ahead : List α) :
    ∃ below above, d.row behind (t :: ahead) = below ++ t :: above ∧
      d.row behind (t :: a :: ahead) = below ++ d.pair t a ++ above := by
  cases d with
  | up => exact ⟨behind.reverse, ahead, rfl, by simp [row, pair]⟩
  | down => exact ⟨ahead.reverse, behind, by simp [row], by simp [row, pair]⟩

variable [DecidableEq α]

theorem ahead_row (d : Direction) (hbehind : a ∉ behind) (hahead : a ∉ ahead) :
    d.ahead a (d.row behind (a :: ahead)) = ahead := by
  cases d with
  | up => exact ahead_up (by simpa using hbehind) ahead
  | down =>
    have hrow : down.row behind (a :: ahead) = ahead.reverse ++ a :: behind := by simp [row]
    rw [hrow, ahead_down (by simpa using hahead), List.reverse_reverse]

theorem behind_row (d : Direction) (hbehind : a ∉ behind) (hahead : a ∉ ahead) :
    d.flip.ahead a (d.row behind (a :: ahead)) = behind := by
  rw [row_turn, ahead_row d.flip hahead hbehind]

theorem erase_row (d : Direction) (hbehind : a ∉ behind) (hahead : a ∉ ahead) :
    (d.row behind (a :: ahead)).erase a = d.row behind ahead := by
  cases d with
  | up => simp [row, List.erase_append_right, hbehind]
  | down => simp [row, List.erase_append_right, hahead]

/-- A list is the row of what is around one of its members. -/
theorem row_around (d : Direction) (ha : a ∈ siblings) :
    d.row (d.flip.ahead a siblings) (a :: d.ahead a siblings) = siblings := by
  obtain ⟨below, above, rfl, hbelow⟩ := List.eq_append_cons_of_mem ha
  cases d with
  | up => rw [flip, ahead_up hbelow, ahead_down hbelow, row, List.reverse_reverse]
  | down => rw [flip, ahead_up hbelow, ahead_down hbelow, row_turn, flip, row, List.reverse_reverse]

omit [DecidableEq α] in
theorem notMem_of_nodup_row (d : Direction) (h : (d.row behind (a :: ahead)).Nodup) :
    a ∉ behind ∧ a ∉ ahead := by
  cases d with
  | up =>
    rw [row, List.nodup_middle, List.nodup_cons] at h
    simpa using h.1
  | down =>
    rw [row_turn, flip, row, List.nodup_middle, List.nodup_cons] at h
    simpa [and_comm] using h.1

/-- Where a member goes past some of the others, the list is another one. -/
theorem row_past_eq_iff (d : Direction) {skipped : List α} (hbehind : a ∉ behind)
    (hskipped : a ∉ skipped) (hahead : a ∉ ahead) :
    d.row (skipped.reverse ++ behind) (a :: ahead) = d.row behind (a :: (skipped ++ ahead)) ↔
      skipped = [] := by
  constructor
  · intro heq
    have hcut := congrArg (d.ahead a) heq
    rw [d.ahead_row (by simp [hbehind, hskipped]) hahead,
      d.ahead_row hbehind (by simp [hskipped, hahead])] at hcut
    exact List.self_eq_append_left.mp hcut
  · rintro rfl
    rfl

omit [DecidableEq α] in
/-- A member that goes past some of the others keeps its place among the rest. -/
theorem filter_row_past (d : Direction) {p : α → Bool} {skipped : List α}
    (hskipped : ∀ s ∈ skipped, p s = false) (behind ahead : List α) :
    (d.row (skipped.reverse ++ behind) (a :: ahead)).filter p =
      (d.row behind (a :: (skipped ++ ahead))).filter p := by
  have hnone : skipped.filter p = [] :=
    List.filter_eq_nil_iff.mpr fun s hs => by simp [hskipped s hs]
  simp [filter_row, List.filter_append, List.filter_cons, List.filter_reverse, hnone]

end Direction

/-! ## There and back -/

variable {H : Type} [DecidableEq H] {e e' e'' : Engine H} {q : Query H} {d : Direction}
  {r : Holder H} {w t : H} {behind ahead skipped rest : List H}

/-- A window that passes a sibling leaves the others in their order. -/
theorem Passes.erase_attached (h : Passes e e' d r w t) (hnodup : (e.attached r).Nodup) :
    (e'.attached r).erase w = (e.attached r).erase w := by
  obtain ⟨below, above, hothers, hafter⟩ := h.siblings
  have hw : w ∉ below ++ t :: above := by
    rw [← hothers]
    exact hnodup.not_mem_erase
  have hbelow : w ∉ below := fun hm => hw (List.mem_append_left _ hm)
  have ht : t ≠ w := fun heq => hw (by simp [heq])
  rw [hothers, hafter, List.append_assoc, List.erase_append_right _ hbelow]
  cases d with
  | up => simp [Direction.pair, ht]
  | down => simp [Direction.pair]

/-- The window ends directly past the sibling, wherever the sibling is among the others. -/
theorem Passes.attached_eq (h : Passes e e' d r w t) (hnodup : (e.attached r).Nodup)
    (hothers : (e.attached r).erase w = d.row behind (t :: ahead)) :
    e'.attached r = d.row behind (t :: w :: ahead) := by
  obtain ⟨below, above, hcut, hafter⟩ := h.siblings
  obtain ⟨below', above', hrow, hafter'⟩ := d.exists_pair w t behind ahead
  -- The sibling is among the others once, so both cut them at one place.
  have hrest := hnodup.erase w
  rw [hcut, List.nodup_middle, List.nodup_cons, List.mem_append, not_or] at hrest
  rw [hcut, hrow] at hothers
  obtain ⟨rfl, -, rfl⟩ := (List.append_cons_inj_of_notMem hrest.1.1 hrest.1.2).mp hothers
  rw [hafter, hafter']

theorem Passes.congr (h : Passes e' e'' d r w t) (hothers : (e'.attached r).erase w =
    (e.attached r).erase w) (hrest : ∀ r', r' ≠ r → e'.attached r' = e.attached r')
    (hhome : ∀ v, e'.homeOf v = e.homeOf v) : Passes e e'' d r w t where
  siblings := hothers ▸ h.siblings
  others r' hne := (h.others r' hne).trans (hrest r' hne)
  homeOf v := (h.homeOf v).trans (hhome v)

/-- A window goes past the siblings that it skips and past the one that it can pass. -/
theorem shift_of_row (h : e.tree.Sound none)
    (hrow : e.attached r = d.row behind (w :: (skipped ++ t :: rest)))
    (hskipped : ∀ s ∈ skipped, ¬ q.CanPass w s) (ht : q.CanPass w t) :
    ∃ e', e.shift q w d = (true, e') ∧ e'.tree.Sound none ∧ Passes e e' d r w t ∧
      e'.attached r = d.row (skipped.reverse ++ behind) (t :: w :: rest) := by
  have hnodup := nodup_attached h r
  obtain ⟨hbehind, hahead⟩ := d.notMem_of_nodup_row (hrow ▸ hnodup)
  have hr : w ∈ e.attached r := by
    rw [hrow]
    cases d <;> simp [Direction.row]
  have hnearest : (d.ahead w (e.attached r)).find? (q.CanPass w) = some t := by
    rw [hrow, d.ahead_row hbehind hahead]
    exact List.find?_eq_some_iff_append.mpr
      ⟨decide_eq_true ht, skipped, rest, rfl, fun s hs => by simpa using hskipped s hs⟩
  obtain ⟨e', heq, hs', hpasses⟩ := shift_of_some h hr hnearest
  refine ⟨e', heq, hs', hpasses, hpasses.attached_eq hnodup ?_⟩
  rw [hrow, d.erase_row hbehind hahead, d.row_append]

/-- A window that has passed a sibling passes it again on the way back, and is then directly
on the other side of it. -/
theorem shift_flip (h : e.tree.Sound none)
    (hrow : e.attached r = d.row behind (w :: (skipped ++ t :: rest)))
    (hskipped : ∀ s ∈ skipped, ¬ q.CanPass w s) (ht : q.CanPass w t) :
    ∃ e' e'', e.shift q w d = (true, e') ∧ e'.shift q w d.flip = (true, e'') ∧
      Passes e e'' d.flip r w t ∧
      e''.attached r = d.row (skipped.reverse ++ behind) (w :: t :: rest) := by
  obtain ⟨e', heq, hs', hpasses, hafter⟩ := shift_of_row h hrow hskipped ht
  -- On the way back, the sibling is the first one that the window meets.
  have hback : e'.attached r = d.flip.row rest (w :: ([] ++ t :: (skipped.reverse ++ behind))) := by
    rw [hafter, List.nil_append, ← d.row_turn]
    exact d.row_append _ [t] (w :: rest)
  obtain ⟨e'', heq', -, hpasses', hafter'⟩ :=
    shift_of_row hs' hback (fun s hs => absurd hs List.not_mem_nil) ht
  refine ⟨e', e'', heq, heq', hpasses'.congr (hpasses.erase_attached (nodup_attached h r))
    hpasses.others hpasses.homeOf, ?_⟩
  rw [hafter', d.row_turn]
  exact d.flip.row_append rest [t] _

theorem isStacked_of_shift (h : e.tree.Sound none) (hmoves : (e.shift q w d).1 = true) :
    e.isStacked w = true := by
  cases hpass : e.passing q w d with
  | none =>
    simp only [shift, hpass] at hmoves
    cases hmoves
  | some found => exact isStacked_iff_get.mpr ⟨_, (passing_cases h hpass).1⟩

/-- A window that moves up, past the nearest sibling that it can pass, moves down again when
asked to, and then is directly below that sibling; all else is as before. So it keeps its place
among the siblings that it can pass, those that it skipped on the way end below it in their
order, and nothing has changed if the sibling was the next one. The same goes for a window that
moves down and then up. -/
theorem move_back_stops_at_passed (h : Reachable e) (q : Query H) (d : Direction)
    (hmoves : (e.perform q (d.op w)).1 = true) :
    ∃ r skipped t rest e'', w ∈ e.attached r ∧
      d.ahead w (e.attached r) = skipped ++ t :: rest ∧
      (∀ s ∈ skipped, ¬ q.CanPass w s) ∧ q.CanPass w t ∧
      (e.perform q (d.op w)).2.perform q (d.flip.op w) = (true, e'') ∧
      Passes e e'' d.flip r w t ∧
      (e''.attached r).filter (fun s => s = w ∨ q.CanPass w s) =
        (e.attached r).filter (fun s => s = w ∨ q.CanPass w s) ∧
      d.ahead w (e''.attached r) = t :: rest ∧
      d.flip.ahead w (e''.attached r) = skipped.reverse ++ d.flip.ahead w (e.attached r) ∧
      (e''.attached r = e.attached r ↔ (d.ahead w (e.attached r)).head? = some t) := by
  have hs := h.sound
  rw [perform_op] at hmoves
  simp only [perform_op]
  obtain ⟨r, hr⟩ := exists_holder hs (isStacked_of_shift hs hmoves)
  cases hnearest : (d.ahead w (e.attached r)).find? (q.CanPass w) with
  | none =>
    rw [shift_of_none hs hr hnearest] at hmoves
    cases hmoves
  | some t =>
    obtain ⟨ht, skipped, rest, hahead, hskip⟩ := List.find?_eq_some_iff_append.mp hnearest
    have ht : q.CanPass w t := of_decide_eq_true ht
    have hskipped : ∀ s ∈ skipped, ¬ q.CanPass w s := fun s hs => by simpa using hskip s hs
    have hrow := (d.row_around hr).symm
    rw [hahead] at hrow
    obtain ⟨hbehind, hfront⟩ := d.notMem_of_nodup_row (hrow ▸ nodup_attached hs r)
    rw [List.mem_append, not_or] at hfront
    have hw : w ∉ skipped.reverse ++ d.flip.ahead w (e.attached r) := by
      simp [hfront.1, hbehind]
    obtain ⟨e', e'', heq, heq', hpasses, hafter⟩ := shift_flip hs hrow hskipped ht
    refine ⟨r, skipped, t, rest, e'', hr, hahead, hskipped, ht, by rw [heq, heq'], hpasses,
      ?_, ?_, ?_, ?_⟩
    · rw [hafter, d.filter_row_past fun s hs => ?_, ← hrow]
      exact decide_eq_false fun hcounts =>
        hcounts.elim (fun hself => hfront.1 (hself ▸ hs)) (hskipped s hs)
    · rw [hafter, d.ahead_row hw hfront.2]
    · rw [hafter, d.behind_row hw hfront.2]
    · have hnext : (skipped ++ t :: rest).head? = some t ↔ skipped = [] := by
        cases skipped with
        | nil => simp
        | cons s skipped =>
          -- The one that it can pass is not among those that it skips.
          refine iff_of_false (fun hhead => ?_) (List.cons_ne_nil s skipped)
          exact hskipped s List.mem_cons_self (Option.some.inj hhead ▸ ht)
      rw [hahead, hnext, hafter, ← d.row_past_eq_iff hbehind hfront.1 hfront.2, ← hrow]

/-- Window 1 skips 2, which is hidden, and 3, which is of another group, to pass 4. On the way
back it stops below 4, with 2 and 3 below it. -/
theorem move_back_stops_at_passed_of_hidden :
    ∃ (e e'' : Engine Nat) (q : Query Nat), e.Reachable ∧
      e.attached (.band .layout) = [1, 2, 3, 4, 5] ∧
      (e.perform q (.up 1)).2.perform q (.down 1) = (true, e'') ∧
      Passes e e'' .down (.band .layout) 1 4 ∧
      e''.attached (.band .layout) = [2, 3, 1, 4, 5] := by
  have hreach : Reachable ((ofSettings {}).performAll [(.blank, .add 1), (.blank, .add 2),
      (.blank, .add 3), (.blank, .add 4), (.blank, .add 5)]) :=
    .performAll (.start {}) _
  let q : Query Nat :=
    { Query.blank with visible := (· ≠ 2), group := fun w => if w = 3 then some 7 else none }
  obtain ⟨r, -, t, rest, e'', hr, -, -, -, heq, hpasses, -, hafter, -, -⟩ :=
    move_back_stops_at_passed hreach q .up (w := 1) (by decide)
  obtain rfl := holder_unique hreach.sound (r := .band .layout) (by decide) hr
  have hlist : (true, e'').2.attached (.band .layout) = [2, 3, 1, 4, 5] := by
    rw [← heq]
    decide
  -- What is directly above 1 at the end is the window that it passed.
  rw [hlist] at hafter
  obtain rfl : 4 = t :=
    (List.cons.inj (show [4, 5] = t :: rest from Eq.trans (by decide) hafter)).1
  exact ⟨_, e'', q, hreach, by decide, heq, hpasses, hlist⟩

end ZOrder.Engine
