/-
  ZOrder.Proofs.FlatStack.Edits

  A flat stack as a list that is edited. A request takes its windows out of the order and
  puts them back as one block, at the place that its anchor has among the other windows.
  Made again, it finds the block where it belongs. After any edits of an empty stack the
  order shows the windows that were placed and not forgotten since, each of them once.
-/

import ZOrder.Proofs.FlatStack.Placements

namespace ZOrder

variable {H : Type} [DecidableEq H]

/-- The anchor tells where the windows below a block end and those above it begin. One that
is not among them has the block go above all of them. -/
def Anchor.Cuts (a : Anchor H) (below above : List H) : Prop :=
  match a with
  | .floor => below = []
  | .above v => if v ∈ below ++ above then below.getLast? = some v else above = []
  | .below v => if v ∈ below ++ above then above.head? = some v else above = []

/-- What a request makes of an order: the windows that it does not list stay as they are
among themselves, and its own stand together where the anchor cuts the others. -/
structure Request.Puts (r : Request H) (order after : List H) : Prop where
  others : after.filter (· ∉ r.windows) = order.filter (· ∉ r.windows)
  block : ∃ below above, order.filter (· ∉ r.windows) = below ++ above ∧
    r.anchor.Cuts below above ∧ after = below ++ r.windows ++ above

namespace FlatStack

/-! ## One request -/

/-- The slot of an anchor is where the anchor cuts a list. -/
theorem exists_cut (ws : List H) (a : Anchor H) :
    ∃ below above, ws = below ++ above ∧ slot ws a = below.length ∧ a.Cuts below above := by
  cases a with
  | floor => exact ⟨[], ws, rfl, rfl, rfl⟩
  | above v =>
    by_cases hv : v ∈ ws
    · obtain ⟨below, above, rfl, hbelow⟩ := List.eq_append_cons_of_mem hv
      refine ⟨below ++ [v], above, by simp, ?_, ?_⟩
      · rw [slot_above hbelow, List.length_append, List.length_singleton]
      · simp [Anchor.Cuts]
    · exact ⟨ws, [], (List.append_nil ws).symm, (slot_of_not_mem hv).1, by simp [Anchor.Cuts, hv]⟩
  | below v =>
    by_cases hv : v ∈ ws
    · obtain ⟨below, above, rfl, hbelow⟩ := List.eq_append_cons_of_mem hv
      exact ⟨below, v :: above, rfl, slot_below hbelow above, by simp [Anchor.Cuts]⟩
    · exact ⟨ws, [], (List.append_nil ws).symm, (slot_of_not_mem hv).2, by simp [Anchor.Cuts, hv]⟩

theorem filter_apply (s : FlatStack H) (r : Request H) :
    (s.apply r).order.filter (· ∉ r.windows) = s.order.filter (· ∉ r.windows) := by
  obtain ⟨M⟩ := s
  by_cases hr : r.windows = []
  · rw [apply_of_nil M hr]
  · rw [apply_eq M hr]
    have hlisted : r.windows.filter (· ∉ r.windows) = [] :=
      filter_notMem_of_subset (List.Subset.refl r.windows)
    rw [List.filter_append, List.filter_append, hlisted, List.append_nil, ← List.filter_append,
      List.take_append_drop, filter_notMem_twice]

theorem puts_apply (s : FlatStack H) {r : Request H} (hr : r.windows ≠ []) :
    r.Puts s.order (s.apply r).order := by
  refine ⟨filter_apply s r, ?_⟩
  obtain ⟨M⟩ := s
  obtain ⟨below, above, hcut, hslot, hcuts⟩ := exists_cut (M.filter (· ∉ r.windows)) r.anchor
  refine ⟨below, above, hcut, hcuts, ?_⟩
  rw [apply_eq M hr, hslot, hcut, List.take_left, List.drop_left]

/-- Where the windows of the request are does not matter, so the second time changes
nothing. -/
theorem apply_apply (s : FlatStack H) (r : Request H) : (s.apply r).apply r = s.apply r := by
  by_cases hr : r.windows = []
  · exact apply_of_nil _ hr
  · exact apply_congr hr (filter_apply s r)

/-! ## Many edits -/

/-- A change of a flat stack. -/
inductive Edit (H : Type) where
  | apply (r : Request H)
  | forget (w : H)

/-- The stack that an edit makes of a stack. -/
def edit (s : FlatStack H) : Edit H → FlatStack H
  | .apply r => s.apply r
  | .forget w => s.forget w

/-- Some edit places the window, and none after it forgets it. -/
def Placed (edits : List (Edit H)) (w : H) : Prop :=
  ∃ before r after, edits = before ++ .apply r :: after ∧ w ∈ r.windows ∧ .forget w ∉ after

omit [DecidableEq H] in
/-- Only the last edit tells a window's standing apart from what it was before. -/
theorem placed_concat {edits : List (Edit H)} {last : Edit H} {w : H} :
    Placed (edits ++ [last]) w ↔
      (∃ r, last = .apply r ∧ w ∈ r.windows) ∨ Placed edits w ∧ last ≠ .forget w := by
  constructor
  · rintro ⟨before, r, after, heq, hw, hkept⟩
    rcases List.eq_nil_or_concat after with rfl | ⟨rest, e, rfl⟩
    · exact .inl ⟨r, List.singleton_inj.mp (List.append_inj' heq rfl).2, hw⟩
    · rw [List.concat_eq_append] at heq hkept
      rw [← List.cons_append, ← List.append_assoc] at heq
      obtain ⟨rfl, hlast⟩ := List.append_inj' heq rfl
      obtain rfl := List.singleton_inj.mp hlast
      obtain ⟨hrest, hne⟩ := not_or.mp (List.mem_append.not.mp hkept)
      exact .inr ⟨⟨before, r, rest, rfl, hw, hrest⟩,
        fun he => hne (List.mem_singleton.mpr he.symm)⟩
  · rintro (⟨r, rfl, hw⟩ | ⟨⟨before, r, after, rfl, hw, hkept⟩, hne⟩)
    · exact ⟨edits, r, [], rfl, hw, List.not_mem_nil⟩
    · refine ⟨before, r, after ++ [last], by simp, hw, fun hmem => ?_⟩
      rcases List.mem_append.mp hmem with hmem | hmem
      · exact hkept hmem
      · exact hne (List.mem_singleton.mp hmem).symm

theorem nodup_edit {s : FlatStack H} {e : Edit H} (hs : s.order.Nodup)
    (he : ∀ r, e = .apply r → r.windows.Nodup) : (s.edit e).order.Nodup := by
  cases e with
  | apply r => exact nodup_apply hs (he r rfl)
  | forget w => exact hs.filter _

theorem mem_edit {s : FlatStack H} {e : Edit H} {w : H} :
    w ∈ (s.edit e).order ↔
      (∃ r, e = .apply r ∧ w ∈ r.windows) ∨ w ∈ s.order ∧ e ≠ .forget w := by
  cases e with
  | apply r => simp [edit, mem_apply, or_comm]
  | forget v =>
    simp only [edit, forget, List.mem_filter, decide_eq_true_eq, reduceCtorEq, false_and,
      exists_false, false_or, ne_eq, Edit.forget.injEq]
    exact and_congr_right fun _ => not_congr eq_comm

theorem nodup_edits {edits : List (Edit H)} (hedits : ∀ r, .apply r ∈ edits → r.windows.Nodup) :
    (edits.foldl edit empty).order.Nodup := by
  induction edits using List.reverseRecOn with
  | nil => exact List.nodup_nil
  | append_singleton edits last ih =>
    rw [List.foldl_append]
    refine nodup_edit (ih fun r hr => hedits r (List.mem_append_left _ hr)) fun r hr => ?_
    exact hedits r (hr ▸ List.mem_append_right edits (List.mem_singleton_self last))

/-- The windows on the stack are those that are placed and not forgotten. -/
theorem mem_edits_iff (edits : List (Edit H)) (w : H) :
    w ∈ (edits.foldl edit empty).order ↔ Placed edits w := by
  induction edits using List.reverseRecOn with
  | nil =>
    refine iff_of_false List.not_mem_nil ?_
    rintro ⟨before, r, after, heq, -⟩
    simp at heq
  | append_singleton edits last ih =>
    rw [List.foldl_append, placed_concat, ← ih]
    exact mem_edit

/-- A request edits a stack as `Puts` says and need not be made twice, and the edits of an
empty stack leave the windows that are placed and not forgotten, each once. -/
theorem apply_edits_order :
    (∀ (s : FlatStack H) (r : Request H), r.windows ≠ [] → r.Puts s.order (s.apply r).order) ∧
      (∀ (s : FlatStack H) (r : Request H), (s.apply r).apply r = s.apply r) ∧
      ∀ edits : List (Edit H), (∀ r, .apply r ∈ edits → r.windows.Nodup) →
        (edits.foldl edit empty).order.Nodup ∧
          ∀ w, w ∈ (edits.foldl edit empty).order ↔ Placed edits w :=
  ⟨fun s _ hr => puts_apply s hr, apply_apply,
    fun edits hedits => ⟨nodup_edits hedits, mem_edits_iff edits⟩⟩

/-- A block goes above a window that stood between its own windows. After three edits one
window is forgotten, and two stand above all others, on an anchor that is not there. -/
theorem apply_edits_order_of_three :
    (⟨[4, 2], .above 3⟩ : Request Nat).Puts [1, 2, 3, 4] [1, 3, 4, 2] ∧
      ∃ edits : List (Edit Nat), edits.length = 3 ∧
        (∀ r, .apply r ∈ edits → r.windows.Nodup) ∧
        (edits.foldl edit empty).order = [3, 4, 1] ∧
        ∀ w, w ∈ [3, 4, 1] ↔ Placed edits w := by
  obtain ⟨hputs, -, hedits⟩ := apply_edits_order (H := Nat)
  let edits : List (Edit Nat) :=
    [.apply ⟨[1, 2, 3], .floor⟩, .forget 2, .apply ⟨[4, 1], .above 9⟩]
  have hnodup : ∀ r, .apply r ∈ edits → r.windows.Nodup := by simp [edits]
  have hmove : apply ⟨[1, 2, 3, 4]⟩ ⟨[4, 2], .above 3⟩ = ⟨[1, 3, 4, 2]⟩ := by decide
  have hput := hputs ⟨[1, 2, 3, 4]⟩ ⟨[4, 2], .above 3⟩ (by decide)
  rw [hmove] at hput
  have hrun : (edits.foldl edit empty).order = [3, 4, 1] := by decide
  exact ⟨hput, edits, rfl, hnodup, hrun, hrun ▸ (hedits edits hnodup).2⟩

end FlatStack

end ZOrder
