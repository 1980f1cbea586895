/-
  ZOrder.Proofs.FlatStack.Apply

  What carrying out a request does to a flat stack. A run that belongs between two
  parts of an order is anchored on `Anchor.between` them; the anchor names one
  window only, so a request realises an order on a stack that agrees with it about
  all other windows, and may leave the windows of a third run anywhere near it.
-/

import ZOrder.FlatStack
import ZOrder.Proofs.Block

namespace ZOrder

variable {H : Type}

/-- The neighbour of a run that has these windows below it and those above it. -/
def Anchor.between (below above : List H) : Anchor H :=
  match below.getLast?, above.head? with
  | some w, _ => .above w
  | none, some w => .below w
  | none, none => .floor

theorem Anchor.between_concat (below above : List H) (w : H) :
    Anchor.between (below ++ [w]) above = .above w := by
  simp [Anchor.between]

theorem Anchor.between_nil_cons (w : H) (above : List H) :
    Anchor.between [] (w :: above) = .below w := rfl

/-- The neighbour is one of the windows below or above. -/
theorem Anchor.mem_of_between {below above : List H} {w : H}
    (h : Anchor.between below above = .above w ∨ Anchor.between below above = .below w) :
    w ∈ below ∨ w ∈ above := by
  rcases List.eq_nil_or_concat below with rfl | ⟨rest, v, rfl⟩
  · cases above with
    | nil => rcases h with h | h <;> cases h
    | cons v above =>
      rw [between_nil_cons] at h
      rcases h with h | h <;> cases h
      exact .inr List.mem_cons_self
  · rw [List.concat_eq_append, between_concat] at h
    rcases h with h | h <;> cases h
    exact .inl (by simp)

variable [DecidableEq H]

namespace FlatStack

/-- Carrying out a request that lists windows, with the windows left out as a set. -/
theorem apply_eq (M : List H) {r : Request H} (hr : r.windows ≠ []) :
    apply ⟨M⟩ r =
      ⟨(M.filter (· ∉ r.windows)).take (slot (M.filter (· ∉ r.windows)) r.anchor) ++ r.windows ++
        (M.filter (· ∉ r.windows)).drop (slot (M.filter (· ∉ r.windows)) r.anchor)⟩ := by
  have hothers : (M.filter fun w => !r.windows.contains w) = M.filter (· ∉ r.windows) :=
    List.filter_congr fun w _ => by simp
  have hne : r.windows.isEmpty = false := by simpa using hr
  simp only [apply, hne, hothers, Bool.false_eq_true, if_false]

theorem apply_of_nil (M : List H) {r : Request H} (hr : r.windows = []) :
    apply ⟨M⟩ r = ⟨M⟩ := by
  simp [apply, hr]

theorem slot_above {xs : List H} {w : H} (hw : w ∉ xs) (ys : List H) :
    slot (xs ++ w :: ys) (.above w) = xs.length + 1 := by
  rw [slot, idxOf?_append_cons hw]
  rfl

theorem slot_below {xs : List H} {w : H} (hw : w ∉ xs) (ys : List H) :
    slot (xs ++ w :: ys) (.below w) = xs.length := by
  rw [slot, idxOf?_append_cons hw]
  rfl

/-- A run anchored between two parts of a list goes where they meet. -/
theorem slot_between {below above : List H} (h : (below ++ above).Nodup) :
    slot (below ++ above) (.between below above) = below.length := by
  rcases List.eq_nil_or_concat below with rfl | ⟨rest, w, rfl⟩
  · cases above with
    | nil => rfl
    | cons w above => exact slot_below List.not_mem_nil above
  · have hw : w ∉ rest := ((List.nodup_concat rest w).mp h.of_append_left).1
    rw [List.concat_eq_append] at h ⊢
    rw [Anchor.between_concat, List.append_assoc, List.singleton_append, slot_above hw,
      List.length_append, List.length_singleton]

/-- A request brings a stack in order that differs from the order in the run only. -/
theorem apply_between {M below run above : List H} (hnodup : (below ++ run ++ above).Nodup)
    (hM : M.filter (· ∉ run) = below ++ above) :
    apply ⟨M⟩ ⟨run, .between below above⟩ = ⟨below ++ run ++ above⟩ := by
  by_cases hrun : run = []
  · subst hrun
    rw [apply_of_nil M rfl]
    simpa using hM
  · have hrest : (below ++ above).Nodup := by
      refine hnodup.sublist ?_
      rw [List.append_assoc]
      exact (List.Sublist.refl below).append (List.sublist_append_right run above)
    -- What the stack shows without the run is cut where its two parts meet.
    rw [apply_eq M (r := ⟨run, _⟩) hrun]
    dsimp only
    rw [hM, slot_between hrest, List.take_left, List.drop_left]

/-! ## A run next to windows that have not moved yet -/

/-- When the windows of a family are still where a run is to go, the run goes before them,
after them or between them, even if its anchor is one of them. -/
theorem slot_between_of_family {below : List H} (h : below.Nodup) (above family : List H) :
    ∃ before after, family = before ++ after ∧
      slot (below.filter (· ∉ family) ++ family ++ above.filter (· ∉ family))
        (.between below above) = (below.filter (· ∉ family) ++ before).length := by
  rcases List.eq_nil_or_concat below with rfl | ⟨rest, w, rfl⟩
  · cases above with
    | nil => exact ⟨[], family, rfl, rfl⟩
    | cons w above =>
      simp only [Anchor.between_nil_cons, List.filter_nil, List.nil_append]
      by_cases hw : w ∈ family
      · -- The anchor is the window `w` of the family: the run goes right below it.
        obtain ⟨before, after, hsplit, hbefore⟩ := List.eq_append_cons_of_mem hw
        refine ⟨before, w :: after, hsplit, ?_⟩
        generalize (w :: above).filter (· ∉ family) = above'
        rw [hsplit, List.append_assoc, List.cons_append, slot_below hbefore]
      · refine ⟨family, [], (List.append_nil family).symm, ?_⟩
        rw [List.filter_cons_of_pos (by simpa using hw), slot_below hw]
  · have hrest : w ∉ rest.filter (· ∉ family) := fun hmem =>
      ((List.nodup_concat rest w).mp h).1 (List.mem_of_mem_filter hmem)
    rw [List.concat_eq_append]
    rw [Anchor.between_concat, List.filter_append]
    by_cases hw : w ∈ family
    · -- The same from the other side: the run goes right above `w`.
      obtain ⟨before, after, hsplit, hbefore⟩ := List.eq_append_cons_of_mem hw
      refine ⟨before ++ [w], after, by simp [hsplit], ?_⟩
      rw [List.filter_cons_of_neg (by simpa using hw), List.filter_nil, List.append_nil]
      generalize rest.filter (· ∉ family) = below' at hrest ⊢
      generalize above.filter (· ∉ family) = above'
      have hnot : w ∉ below' ++ before := by simp [hrest, hbefore]
      have heq : below' ++ family ++ above' = (below' ++ before) ++ w :: (after ++ above') := by
        simp [hsplit]
      rw [heq, slot_above hnot]
      simp [Nat.add_assoc]
    · refine ⟨[], family, rfl, ?_⟩
      rw [List.filter_cons_of_pos (by simpa using hw), List.filter_nil, List.append_assoc,
        List.append_assoc, List.singleton_append, slot_above hrest]
      simp

/-- Carrying out such a request puts the other windows in order. -/
theorem filter_apply_between {Z below run above family : List H}
    (hbelow : below.Nodup) (hdisj : List.Disjoint run family)
    (hZ : Z.filter (· ∉ run) =
      below.filter (· ∉ family) ++ family ++ above.filter (· ∉ family)) :
    (apply ⟨Z⟩ ⟨run, .between below above⟩).order.filter (· ∉ family) =
      below.filter (· ∉ family) ++ run ++ above.filter (· ∉ family) := by
  by_cases hrun : run = []
  · subst hrun
    rw [apply_of_nil Z rfl]
    have hZ' : Z = below.filter (· ∉ family) ++ family ++ above.filter (· ∉ family) := by
      simpa using hZ
    rw [hZ', List.filter_append, List.filter_append, filter_notMem_twice,
      filter_notMem_twice, filter_notMem_of_subset (List.Subset.refl family)]
  · obtain ⟨before, after, hsplit, hslot⟩ :=
      slot_between_of_family hbelow above family
    rw [apply_eq Z (r := ⟨run, _⟩) hrun]
    dsimp only
    rw [hZ, hslot]
    have hparts : below.filter (· ∉ family) ++ family ++ above.filter (· ∉ family) =
        (below.filter (· ∉ family) ++ before) ++ (after ++ above.filter (· ∉ family)) := by
      rw [List.append_assoc, List.append_assoc, ← List.append_assoc before, ← hsplit]
    -- The run lands between two parts of the family, which are left out in the end.
    have hbefore : before.filter (· ∉ family) = [] :=
      filter_notMem_of_subset (hsplit ▸ List.subset_append_left before after)
    have hafter : after.filter (· ∉ family) = [] :=
      filter_notMem_of_subset (hsplit ▸ List.subset_append_right before after)
    rw [hparts, List.take_left, List.drop_left, List.filter_append, List.filter_append,
      List.filter_append, List.filter_append, filter_notMem_twice, filter_notMem_twice,
      filter_notMem_of_disjoint hdisj, hbefore, hafter, List.append_nil, List.nil_append]

end FlatStack

end ZOrder
