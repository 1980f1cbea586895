/-
  ZOrder.Proofs.FlatStack.Placements

  A run of windows put in place one window at a time: the first against the anchor, each
  later one above the one before it. On a flat stack this comes to the same as putting
  the whole run in place at once, whatever windows are on the stack, as long as the run
  lists no window twice and not its own anchor.
-/

import ZOrder.Proofs.FlatStack.Realizes

namespace ZOrder

variable {H : Type}

/-- A placement as a request of its own. -/
def Request.single (placement : H × Anchor H) : Request H := ⟨[placement.1], placement.2⟩

namespace Request

theorem placements_cons (w : H) (rest : List H) (a : Anchor H) :
    (⟨w :: rest, a⟩ : Request H).placements =
      (w, a) :: (⟨rest, .above w⟩ : Request H).placements := by
  cases rest <;> rfl

/-- Without its first window a run goes above that window. -/
theorem Tidy.tail {w : H} {rest : List H} {a : Anchor H}
    (h : (⟨w :: rest, a⟩ : Request H).Tidy) : (⟨rest, .above w⟩ : Request H).Tidy := by
  obtain ⟨hw, hrest⟩ := List.nodup_cons.mp h.nodup
  refine ⟨hrest, fun v hv => ?_⟩
  rcases hv with hv | hv
  · exact Anchor.above.inj hv ▸ hw
  · cases hv

/-- A window is placed against the anchor or another window of the run. -/
theorem Tidy.names_single {r : Request H} (h : r.Tidy) {placement : H × Anchor H}
    (hp : placement ∈ r.placements) {v : H}
    (hv : placement.2 = .above v ∨ placement.2 = .below v) : r.Names v ∧ v ≠ placement.1 := by
  obtain ⟨windows, a⟩ := r
  induction windows generalizing a with
  | nil => cases hp
  | cons w rest ih =>
    rw [placements_cons, List.mem_cons] at hp
    rcases hp with rfl | hp
    · refine ⟨.inr hv, ?_⟩
      rintro rfl
      exact h.anchor _ hv List.mem_cons_self
    · obtain ⟨hnames, hne⟩ := ih _ h.tail hp
      refine ⟨.inl ?_, hne⟩
      rcases hnames with hmem | habove | hbelow
      · exact List.mem_cons_of_mem w hmem
      · exact Anchor.above.inj habove ▸ List.mem_cons_self
      · cases hbelow

end Request

namespace FlatStack

variable [DecidableEq H]

/-- A window on its own is taken out and put back against its anchor. -/
theorem apply_single (M : List H) (w : H) (a : Anchor H) :
    apply ⟨M⟩ (.single (w, a)) =
      ⟨(M.filter (· ≠ w)).take (slot (M.filter (· ≠ w)) a) ++
        w :: (M.filter (· ≠ w)).drop (slot (M.filter (· ≠ w)) a)⟩ := by
  have hothers : M.filter (· ∉ [w]) = M.filter (· ≠ w) :=
    List.filter_congr fun v _ => by simp
  show apply ⟨M⟩ ⟨[w], a⟩ = _
  rw [apply_eq M (r := ⟨[w], a⟩) (List.cons_ne_nil w [])]
  dsimp only
  rw [hothers, List.append_assoc, List.singleton_append]

/-- The first window of a run, and then the others above it. -/
theorem apply_single_apply (M : List H) {w : H} {rest : List H} {a : Anchor H}
    (h : (⟨w :: rest, a⟩ : Request H).Tidy) :
    (apply ⟨M⟩ (.single (w, a))).apply ⟨rest, .above w⟩ = apply ⟨M⟩ ⟨w :: rest, a⟩ := by
  by_cases hrest : rest = []
  · subst hrest
    exact apply_of_nil _ rfl
  · have hw : w ∉ rest := (List.nodup_cons.mp h.nodup).1
    -- The anchor decides where the stack is cut, and the run does not list it.
    have hanchor : ∀ v, a = .above v ∨ a = .below v → decide (v ∉ rest) = true := by
      intro v hv
      simpa using fun hmem => h.anchor v hv (List.mem_cons_of_mem w hmem)
    obtain ⟨left, right, hcut, hslot, hslot'⟩ := exists_slot_split (M.filter (· ≠ w)) hanchor
    have hothers : M.filter (· ∉ w :: rest) = (M.filter (· ≠ w)).filter (· ∉ rest) := by
      rw [List.filter_filter]
      refine List.filter_congr fun v _ => ?_
      by_cases hv : v = w <;> simp [hv]
    have hleft : w ∉ left.filter (· ∉ rest) := by
      intro hmem
      have hmem' : w ∈ M.filter (· ≠ w) :=
        hcut ▸ List.mem_append_left right (List.mem_of_mem_filter hmem)
      simp at hmem'
    -- The first window is placed in the cut, and the others right above it.
    have hrun : (left ++ w :: right).filter (· ∉ rest) =
        (left.filter (· ∉ rest) ++ [w]) ++ right.filter (· ∉ rest) := by
      rw [List.filter_append, List.filter_cons_of_pos (by simpa using hw), List.append_assoc,
        List.singleton_append]
    have hplace : slot ((left ++ w :: right).filter (· ∉ rest)) (.above w) =
        (left.filter (· ∉ rest) ++ [w]).length := by
      rw [hrun, List.append_assoc, List.singleton_append, slot_above hleft, List.length_append,
        List.length_singleton]
    rw [apply_single, hslot, hcut, List.take_left, List.drop_left,
      apply_eq _ (r := ⟨rest, .above w⟩) hrest,
      apply_eq M (r := ⟨w :: rest, a⟩) (List.cons_ne_nil w rest)]
    dsimp only
    rw [hplace, hrun, hothers, hslot', hcut, List.filter_append, List.take_left, List.drop_left,
      List.take_left, List.drop_left, List.append_assoc _ [w], List.singleton_append]

/-- Putting the windows of a request in place one by one carries it out. -/
theorem foldl_placements {r : Request H} (h : r.Tidy) (s : FlatStack H) :
    (r.placements.map Request.single).foldl apply s = s.apply r := by
  obtain ⟨windows, a⟩ := r
  induction windows generalizing a s with
  | nil => exact (apply_of_nil s.order rfl).symm
  | cons w rest ih =>
    rw [Request.placements_cons, List.map_cons, List.foldl_cons, ih _ _ h.tail]
    exact apply_single_apply s.order h

/-- A request that lists each window once keeps the stack free of repetition. -/
theorem nodup_apply {s : FlatStack H} {r : Request H} (hs : s.order.Nodup)
    (hr : r.windows.Nodup) : (s.apply r).order.Nodup := by
  obtain ⟨M⟩ := s
  by_cases hnil : r.windows = []
  · rwa [apply_of_nil M hnil]
  · rw [apply_eq M hnil]
    generalize hothers : M.filter (· ∉ r.windows) = others
    have hnodup : others.Nodup := hothers ▸ hs.filter _
    have hdisj : List.Disjoint r.windows others := by
      intro v hv hmem
      rw [← hothers, List.mem_filter] at hmem
      simp [hv] at hmem
    -- Up to the place of the run, the stack is the run followed by the other windows.
    have hperm : ∀ k, (others.take k ++ r.windows ++ others.drop k).Perm (r.windows ++ others) := by
      intro k
      have hswap : (others.take k ++ r.windows).Perm (r.windows ++ others.take k) :=
        List.perm_append_comm
      have happ := hswap.append_right (others.drop k)
      rwa [List.append_assoc r.windows, List.take_append_drop] at happ
    exact (hperm _).nodup_iff.mpr (List.nodup_append'.mpr ⟨hr, hnodup, hdisj⟩)

theorem nodup_foldl_apply {s : FlatStack H} {rs : List (Request H)} (hs : s.order.Nodup)
    (hrs : ∀ r ∈ rs, r.windows.Nodup) : (rs.foldl apply s).order.Nodup := by
  induction rs generalizing s with
  | nil => exact hs
  | cons r rest ih =>
    exact ih (nodup_apply hs (hrs r List.mem_cons_self))
      fun r' hr' => hrs r' (List.mem_cons_of_mem r hr')

end FlatStack

end ZOrder
