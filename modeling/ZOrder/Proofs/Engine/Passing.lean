/-
  ZOrder.Proofs.Engine.Passing

  Windows that move up or down. The sibling to pass is picked in a list that leaves out
  the siblings that do not count, while the place beyond it is counted in the list of all
  siblings but the window itself. Both lists agree on what lies ahead of the window: the
  nearest sibling ahead that it can pass is the one that it passes.

  Each move leaves one such sibling fewer ahead, so the moves that succeed can be counted
  beforehand.
-/

import ZOrder.Proofs.Engine.Attached
import ZOrder.Proofs.Engine.Reachable

namespace ZOrder

/-- A window can pass siblings that show and have no group or its own. -/
def Query.CanPass {H : Type} (q : Query H) (w s : H) : Prop :=
  q.visible s = true ∧ (q.group s = none ∨ q.group s = q.group w)

instance {H : Type} (q : Query H) (w s : H) : Decidable (q.CanPass w s) :=
  inferInstanceAs (Decidable (_ ∧ _))

namespace Engine

open ZOrder.Tree (SameShape)

/-! ## Directions -/

namespace Direction

/-- The move of a window in this direction. -/
def op {H : Type} (d : Direction) (w : H) : Op H :=
  match d with
  | .up => .up w
  | .down => .down w

variable {α : Type}

/-- Two siblings, bottom to top, the second one just ahead of the first. -/
def pair (d : Direction) (behind ahead : α) : List α :=
  match d with
  | .up => [behind, ahead]
  | .down => [ahead, behind]

variable [DecidableEq α]

/-- The siblings ahead of one of them, nearest first. -/
def ahead (d : Direction) (a : α) (siblings : List α) : List α :=
  match d with
  | .up => (siblings.dropWhile (· ≠ a)).drop 1
  | .down => (siblings.takeWhile (· ≠ a)).reverse

variable {a t : α} {below above : List α}

theorem ahead_up (ha : a ∉ below) (above : List α) :
    up.ahead a (below ++ a :: above) = above := by
  have hbelow : ∀ b ∈ below, decide (b ≠ a) = true := fun b hb =>
    decide_eq_true (ne_of_mem_of_not_mem hb ha)
  rw [ahead, List.dropWhile_append_of_pos hbelow, List.dropWhile_cons_of_neg (by simp),
    List.drop_one, List.tail_cons]

theorem ahead_down (ha : a ∉ below) (above : List α) :
    down.ahead a (below ++ a :: above) = below.reverse := by
  have hbelow : ∀ b ∈ below, decide (b ≠ a) = true := fun b hb =>
    decide_eq_true (ne_of_mem_of_not_mem hb ha)
  rw [ahead, List.takeWhile_append_of_pos hbelow, List.takeWhile_cons_of_neg (by simp),
    List.append_nil]

/-- Past a sibling, only what was beyond it is still ahead. -/
theorem ahead_passed {siblings skipped rest : List α} (d : Direction) (hnodup : siblings.Nodup)
    (ha : a ∈ siblings) (hahead : d.ahead a siblings = skipped ++ t :: rest)
    (herase : siblings.erase a = below ++ t :: above) :
    d.ahead a (below ++ d.pair t a ++ above) = rest := by
  obtain ⟨before, after, rfl⟩ := List.append_of_mem ha
  obtain ⟨hbefore, hafter⟩ : a ∉ before ∧ a ∉ after := by
    rw [List.nodup_middle, List.nodup_cons] at hnodup
    simpa using hnodup.1
  have hothers : (before ++ after).Nodup := (List.nodup_cons.mp (List.nodup_middle.mp hnodup)).2
  rw [List.erase_append_right _ hbefore, List.erase_cons_head] at herase
  -- What is left without the window has the sibling at one place only.
  have hunique : ∀ {xs ys : List α}, before ++ after = xs ++ t :: ys → xs = below ∧ ys = above := by
    intro xs ys hsplit
    have hxs : t ∉ xs ∧ t ∉ ys := by
      rw [hsplit, List.nodup_middle, List.nodup_cons] at hothers
      simpa using hothers.1
    obtain ⟨hx, -, hy⟩ :=
      (List.append_cons_inj_of_notMem hxs.1 hxs.2).mp (hsplit.symm.trans herase)
    exact ⟨hx, hy⟩
  have hmem : ∀ x ∈ below ++ t :: above, x ≠ a := by
    rintro x hx rfl
    rw [← herase] at hx
    simp [hbefore, hafter] at hx
  have hbelow : a ∉ below := fun hm => hmem a (by simp [hm]) rfl
  cases d with
  | up =>
    rw [ahead_up hbefore] at hahead
    have hsplit : before ++ after = (before ++ skipped) ++ t :: rest := by simp [hahead]
    obtain ⟨-, rfl⟩ := hunique hsplit
    have hnot : a ∉ below ++ [t] := by
      simpa [hbelow] using Ne.symm (hmem t (by simp))
    simpa [pair] using ahead_up hnot rest
  | down =>
    rw [ahead_down hbefore, List.reverse_eq_iff] at hahead
    have hsplit : before ++ after = rest.reverse ++ t :: (skipped.reverse ++ after) := by
      simp [hahead]
    obtain ⟨rfl, -⟩ := hunique hsplit
    simpa [pair] using ahead_down hbelow (t :: above)

end Direction

/-! ## One move -/

variable {H : Type} [DecidableEq H] {e : Engine H} {q : Query H} {d : Direction} {w : H}
  {r : Holder H}

theorem perform_op (e : Engine H) (q : Query H) (d : Direction) (w : H) :
    e.perform q (d.op w) = e.shift q w d := by
  cases d <;> rfl

omit [DecidableEq H] in
theorem isPassable_eq (q : Query H) (w : H) :
    isPassable q (q.group w) = fun s => decide (q.CanPass w s) := by
  funext s
  rw [Bool.eq_iff_iff, decide_eq_true_iff]
  simp [isPassable, Query.CanPass]

/-- Whether a node is one that a window can pass. -/
def counts (e : Engine H) (q : Query H) (w : H) (x : NodeId) : Bool :=
  (e.tree.handle x).any fun s => decide (q.CanPass w s)

omit [DecidableEq H] in
/-- The siblings that count when a window moves, as those below it and those above it. -/
theorem candidates_eq {id p : NodeId} {below above : List NodeId}
    (hcs : e.tree.children p = below ++ id :: above) (hbelow : id ∉ below) (habove : id ∉ above) :
    e.candidates q w id p = below.filter (e.counts q w) ++ id :: above.filter (e.counts q w) := by
  have hothers : ∀ part : List NodeId, id ∉ part →
      part.filter (fun x => x == id || e.counts q w x) = part.filter (e.counts q w) := by
    intro part hpart
    refine List.filter_congr fun x hx => ?_
    rw [beq_false_of_ne (ne_of_mem_of_not_mem hx hpart), Bool.false_or]
  rw [candidates, isPassable_eq, hcs, List.filter_append, List.filter_cons_of_pos (by simp)]
  exact congrArg₂ (· ++ id :: ·) (hothers _ hbelow) (hothers _ habove)

/-- The sibling to pass is the nearest one ahead that counts, although it is looked up among
fewer siblings. -/
theorem passing_eq (h : e.tree.Sound none) {id p : NodeId} (hget : e.tree.get w = some id)
    (hpar : e.tree.parent id = some p) :
    e.passing q w d = ((d.ahead id (e.tree.children p)).find? (e.counts q w)).map
      fun target => (id, p, target) := by
  obtain ⟨below, above, hcs, hbelow, habove⟩ := h.exists_split hpar
  have hplace : (e.candidates q w id p).idxOf? id =
      some (below.filter (e.counts q w)).length := by
    rw [candidates_eq hcs hbelow habove]
    exact idxOf?_append_cons (fun hm => hbelow (List.mem_of_mem_filter hm)) _
  simp only [passing, hget, hpar, hplace, Option.bind_eq_bind, Option.bind_some]
  rw [candidates_eq hcs hbelow habove, hcs]
  generalize e.counts q w = counts
  cases d with
  | up =>
    have hnext : (above.filter counts).head? =
        (below.filter counts ++ id :: above.filter counts)[(below.filter counts).length + 1]? := by
      rw [List.getElem?_append_right (Nat.le_add_right _ 1), Nat.add_sub_cancel_left,
        List.getElem?_cons_succ, List.head?_eq_getElem?]
    rw [Direction.ahead_up hbelow, ← List.head?_filter, hnext, Option.map_eq_bind]
    rfl
  | down =>
    rw [Direction.ahead_down hbelow, ← List.head?_filter, List.filter_reverse, List.head?_reverse]
    rcases List.eq_nil_or_concat (below.filter counts) with hnil | ⟨rest, target, hsome⟩
    · rw [hnil]
      rfl
    · rw [hsome, List.concat_eq_append, List.length_append, List.length_singleton]
      simp

/-- The windows ahead are those of the nodes ahead. -/
theorem ahead_attached (h : e.tree.Sound none) {id p : NodeId} (hget : e.tree.get w = some id)
    (hpar : e.tree.parent id = some p) (hr : e.holderNode r = some p) :
    d.ahead w (e.attached r) = e.tree.handles (d.ahead id (e.tree.children p)) := by
  obtain ⟨below, above, hcs, hbelow, -⟩ := h.exists_split hpar
  have hattached : e.attached r = e.tree.handles below ++ w :: e.tree.handles above := by
    rw [attached_of_node hr, hcs, Tree.handles_append, Tree.handles_cons ((h.get_iff w id).mp hget)]
  have hw : w ∉ e.tree.handles below := by
    have hnodup := nodup_attached h r
    rw [hattached, List.nodup_middle, List.nodup_cons] at hnodup
    exact fun hm => hnodup.1 (List.mem_append_left _ hm)
  rw [hattached, hcs]
  cases d with
  | up => rw [Direction.ahead_up hw, Direction.ahead_up hbelow]
  | down =>
    rw [Direction.ahead_down hw, Direction.ahead_down hbelow]
    exact (List.filterMap_reverse).symm

/-- The nearest window ahead that can be passed is that of the nearest node that counts. -/
theorem find?_ahead (h : e.tree.Sound none) {id p : NodeId} (hget : e.tree.get w = some id)
    (hpar : e.tree.parent id = some p) (hr : e.holderNode r = some p) :
    (d.ahead w (e.attached r)).find? (q.CanPass w) =
      (e.passing q w d).bind fun found => e.tree.handle found.2.2 := by
  rw [ahead_attached h hget hpar hr, Tree.handles, List.find?_filterMap, passing_eq h hget hpar,
    Option.bind_map]
  rfl

/-- From `e` to `e'`, the window `w` has gone past its sibling `t`, and nothing else moved. -/
structure Passes (e e' : Engine H) (d : Direction) (r : Holder H) (w t : H) : Prop where
  siblings : ∃ below above, (e.attached r).erase w = below ++ t :: above ∧
    e'.attached r = below ++ d.pair t w ++ above
  others : ∀ r', r' ≠ r → e'.attached r' = e.attached r'
  homeOf : ∀ v, e'.homeOf v = e.homeOf v

theorem shift_of_none (h : e.tree.Sound none) (hr : w ∈ e.attached r)
    (hnone : (d.ahead w (e.attached r)).find? (q.CanPass w) = none) :
    e.shift q w d = (false, e) := by
  obtain ⟨p, id, hrp, hget, hpar⟩ := (mem_attached_iff h).mp hr
  rw [find?_ahead h hget hpar hrp] at hnone
  cases hpass : e.passing q w d with
  | none => simp only [shift, hpass]
  | some found =>
    -- Siblings are windows, so there would be one to pass.
    obtain ⟨id', p', target⟩ := found
    obtain ⟨-, -, hmem, -⟩ := passing_cases h hpass
    obtain ⟨t, ht⟩ := h.handle_of_mem_children hmem
    rw [hpass, Option.bind_some, ht] at hnone
    cases hnone

/-- Where a sibling is found among the other nodes, its window is among the other windows. -/
theorem exists_others (h : e.tree.Sound none) {id p target : NodeId} {t : H} {k : Nat}
    (hw : e.tree.handle id = some w) (hr : e.holderNode r = some p)
    (hk : ((e.tree.children p).erase id).idxOf? target = some k)
    (ht : e.tree.handle target = some t) :
    ∃ below above, (e.attached r).erase w = below ++ t :: above ∧ below.length = k := by
  obtain ⟨hlt, htarget, -⟩ := List.idxOf?_eq_some_iff.mp hk
  have hothers : (e.attached r).erase w = e.tree.handles ((e.tree.children p).erase id) := by
    rw [attached_of_node hr, h.handles_erase hw]
  have hwindows : ∀ x ∈ (e.tree.children p).erase id, ∃ v, e.tree.handle x = some v := fun x hx =>
    h.handle_of_mem_children (List.mem_of_mem_erase hx)
  have hdrop : ((e.attached r).erase w).drop k = t :: ((e.attached r).erase w).drop (k + 1) := by
    rw [hothers, ← Tree.handles_drop hwindows, ← Tree.handles_drop hwindows,
      List.drop_eq_getElem_cons hlt, htarget, Tree.handles_cons ht]
  have hle : k ≤ ((e.attached r).erase w).length := by
    by_contra hgt
    rw [List.drop_eq_nil_of_le (by omega)] at hdrop
    cases hdrop
  refine ⟨((e.attached r).erase w).take k, ((e.attached r).erase w).drop (k + 1), ?_,
    List.length_take_of_le hle⟩
  rw [← hdrop, List.take_append_drop]

theorem shift_of_some (h : e.tree.Sound none) (hr : w ∈ e.attached r) {t : H}
    (hsome : (d.ahead w (e.attached r)).find? (q.CanPass w) = some t) :
    ∃ e', e.shift q w d = (true, e') ∧ e'.tree.Sound none ∧ Passes e e' d r w t := by
  obtain ⟨p, id, hrp, hget, hpar⟩ := (mem_attached_iff h).mp hr
  rw [find?_ahead h hget hpar hrp] at hsome
  obtain ⟨⟨id', p', target⟩, hpass, ht⟩ := Option.bind_eq_some_iff.mp hsome
  obtain ⟨hget', hpar', -, -⟩ := passing_cases h hpass
  obtain rfl := Option.some.inj (hget.symm.trans hget')
  obtain rfl := Option.some.inj (hpar.symm.trans hpar')
  obtain ⟨k, t', hk, hmove, ht', heq⟩ := shift_eq h hpass
  have hw := (h.get_iff w id).mp hget
  have hshape : SameShape t' ({ e with tree := t' }.sync [id]).tree := .refl t'
  refine ⟨_, heq, ht', ?_, ?_, fun v => homeOf_of_sameNodes hmove.sameNodes v⟩
  · obtain ⟨below, above, hothers, hlength⟩ := exists_others h hw hrp hk ht
    rw [attached_target h hmove hshape hw hrp]
    refine ⟨below, above, hothers, ?_⟩
    rw [hothers, ← hlength]
    cases d with
    | up => simp [Direction.pair, List.take_append, List.take_of_length_le]
    | down => simp [Direction.pair]
  · intro r' hne
    rw [attached_other h hmove hshape hw hrp hne, erase_attached h hr hne]

/-! ## Moves in a row -/

theorem Passes.mem_attached {e' : Engine H} {t : H} (h : Passes e e' d r w t) :
    w ∈ e'.attached r := by
  obtain ⟨below, above, -, hafter⟩ := h.siblings
  rw [hafter]
  cases d <;> simp [Direction.pair]

/-- A window that has passed the nearest sibling that it can pass has one fewer to pass. -/
theorem Passes.countP_ahead {e' : Engine H} {t : H} (h : Passes e e' d r w t)
    (hs : e.tree.Sound none) (hr : w ∈ e.attached r)
    (hnearest : (d.ahead w (e.attached r)).find? (q.CanPass w) = some t) :
    (d.ahead w (e'.attached r)).countP (q.CanPass w) + 1 =
      (d.ahead w (e.attached r)).countP (q.CanPass w) := by
  obtain ⟨below, above, hothers, hafter⟩ := h.siblings
  obtain ⟨ht, skipped, rest, hahead, hskipped⟩ := List.find?_eq_some_iff_append.mp hnearest
  have hnone : skipped.countP (q.CanPass w) = 0 :=
    List.countP_eq_zero.mpr fun s hs => by simpa using hskipped s hs
  rw [hafter, d.ahead_passed (nodup_attached hs r) hr hahead hothers, hahead, List.countP_append,
    hnone, Nat.zero_add, List.countP_cons, if_pos ht]

/-- A window is stuck if there is no sibling ahead that it can pass, and else moves and has one
fewer to pass. -/
theorem shift_cases (h : e.tree.Sound none) (hr : w ∈ e.attached r) :
    ((d.ahead w (e.attached r)).countP (q.CanPass w) = 0 ∧ e.shift q w d = (false, e)) ∨
    ∃ e', e.shift q w d = (true, e') ∧ e'.tree.Sound none ∧ w ∈ e'.attached r ∧
      (d.ahead w (e'.attached r)).countP (q.CanPass w) + 1 =
        (d.ahead w (e.attached r)).countP (q.CanPass w) := by
  cases hnearest : (d.ahead w (e.attached r)).find? (q.CanPass w) with
  | none =>
    exact .inl ⟨List.countP_eq_zero.mpr fun s hs => List.find?_eq_none.mp hnearest s hs,
      shift_of_none h hr hnearest⟩
  | some t =>
    obtain ⟨e', heq, hs', hpasses⟩ := shift_of_some h hr hnearest
    exact .inr ⟨e', heq, hs', hpasses.mem_attached, hpasses.countP_ahead h hr hnearest⟩

/-- Under fixed answers, a window can move as often as there are siblings ahead that it can
pass. -/
theorem shift_after_replicate (h : e.tree.Sound none) (hr : w ∈ e.attached r) (n : Nat) :
    ((e.performAll (List.replicate n (q, d.op w))).shift q w d).1 = true ↔
      n < (d.ahead w (e.attached r)).countP (q.CanPass w) := by
  induction n generalizing e with
  | zero =>
    rw [List.replicate_zero, performAll, List.foldl_nil]
    rcases shift_cases (q := q) (d := d) h hr with ⟨hcount, heq⟩ | ⟨e', heq, -, -, hcount⟩
    · simp [heq, hcount]
    · simp [heq, ← hcount]
  | succ n ih =>
    have hrun : e.performAll (List.replicate (n + 1) (q, d.op w)) =
        (e.shift q w d).2.performAll (List.replicate n (q, d.op w)) := by
      rw [List.replicate_succ, performAll, List.foldl_cons, perform_op]
      rfl
    rw [hrun]
    rcases shift_cases (q := q) (d := d) h hr with ⟨hcount, heq⟩ | ⟨e', heq, hs', hr', hcount⟩
    · -- A window that is stuck stays so.
      rw [heq, ih h hr]
      omega
    · rw [heq, ih hs' hr']
      omega

/-- A tracked window that moves up or down passes the nearest sibling on that side that it can
pass, and nothing else changes; where there is none, nothing changes at all. So under fixed
answers it can move as often as there are such siblings. -/
theorem moves_pass_nearest (h : Reachable e) (q : Query H) (d : Direction)
    (hw : e.isStacked w = true) :
    ∃ r, w ∈ e.attached r ∧
      (∀ t, (d.ahead w (e.attached r)).find? (q.CanPass w) = some t →
        ∃ e', e.perform q (d.op w) = (true, e') ∧ Passes e e' d r w t ∧
          (d.ahead w (e'.attached r)).countP (q.CanPass w) + 1 =
            (d.ahead w (e.attached r)).countP (q.CanPass w)) ∧
      ((d.ahead w (e.attached r)).find? (q.CanPass w) = none →
        e.perform q (d.op w) = (false, e)) ∧
      ∀ n, ((e.performAll (List.replicate n (q, d.op w))).perform q (d.op w)).1 = true ↔
        n < (d.ahead w (e.attached r)).countP (q.CanPass w) := by
  have hs := h.sound
  obtain ⟨x, hx⟩ := isStacked_iff_get.mp hw
  obtain ⟨p, hp⟩ := hs.exists_parent ((hs.get_iff w x).mp hx)
  obtain ⟨r, -, hr⟩ := exists_attached hs hx hp
  refine ⟨r, hr, fun t hnearest => ?_, fun hnone => ?_, fun n => ?_⟩
  · obtain ⟨e', heq, -, hpasses⟩ := shift_of_some hs hr hnearest
    rw [perform_op]
    exact ⟨e', heq, hpasses, hpasses.countP_ahead hs hr hnearest⟩
  · rw [perform_op]
    exact shift_of_none hs hr hnone
  · rw [perform_op]
    exact shift_after_replicate hs hr n

/-- Window 1 passes 4 in one move, over 2, which is hidden, and 3, which is of another group; it
passes 5 in the next one, and is stuck then. -/
theorem moves_pass_nearest_of_hidden :
    ∃ (e : Engine Nat) (q : Query Nat), e.Reachable ∧
      e.attached (.band .layout) = [1, 2, 3, 4, 5] ∧
      (∃ e', e.perform q (.up 1) = (true, e') ∧ Passes e e' .up (.band .layout) 1 4) ∧
      ∀ n, ((e.performAll (List.replicate n (q, .up 1))).perform q (.up 1)).1 = true ↔ n < 2 := by
  have hreach : Reachable ((ofSettings {}).performAll [(.blank, .add 1), (.blank, .add 2),
      (.blank, .add 3), (.blank, .add 4), (.blank, .add 5)]) :=
    .performAll (.start {}) _
  let q : Query Nat :=
    { Query.blank with visible := (· ≠ 2), group := fun w => if w = 3 then some 7 else none }
  obtain ⟨r, hr, hpass, -, hmoves⟩ :=
    moves_pass_nearest hreach q .up (show isStacked _ 1 = true by decide)
  -- The window hangs from the root of its band only.
  obtain rfl := holder_unique hreach.sound (r := .band .layout) (by decide) hr
  obtain ⟨e', heq, hpasses, -⟩ := hpass 4 (by decide)
  exact ⟨_, q, hreach, by decide, ⟨e', heq, hpasses⟩, hmoves⟩

end Engine

end ZOrder
