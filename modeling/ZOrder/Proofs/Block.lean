/-
  ZOrder.Proofs.Block

  Lists without repetition that are cut into blocks: finding a member, and leaving
  out a block or all but a block.
-/

import Mathlib.Data.List.Basic
import Mathlib.Data.List.Infix
import Mathlib.Data.List.InsertIdx
import Mathlib.Data.List.Nodup

namespace ZOrder

variable {α β : Type}

theorem infix_flatMap_of_mem (f : α → List β) {a : α} {l : List α} (h : a ∈ l) :
    f a <:+: l.flatMap f := by
  obtain ⟨before, after, rfl⟩ := List.append_of_mem h
  exact ⟨before.flatMap f, after.flatMap f, by simp⟩

theorem insertIdx_eq_take_append (a : α) {k : Nat} {l : List α} (hk : k ≤ l.length) :
    l.insertIdx k a = l.take k ++ a :: l.drop k := by
  induction l generalizing k with
  | nil => simp [Nat.le_zero.mp hk]
  | cons b l ih =>
    cases k with
    | zero => rfl
    | succ k => simp [ih (Nat.le_of_succ_le_succ hk)]

variable [DecidableEq α]

theorem idxOf?_append_cons {xs : List α} {x : α} (hx : x ∉ xs) (ys : List α) :
    (xs ++ x :: ys).idxOf? x = some xs.length := by
  induction xs with
  | nil => simp [List.idxOf?_cons]
  | cons y xs ih =>
    obtain ⟨hxy, hxs⟩ := List.ne_and_not_mem_of_not_mem_cons hx
    rw [List.cons_append, List.idxOf?_cons, ih hxs]
    simp [Ne.symm hxy]

theorem filter_notMem_of_subset {xs out : List α} (h : xs ⊆ out) : xs.filter (· ∉ out) = [] :=
  List.filter_eq_nil_iff.mpr fun x hx => by simpa using h hx

theorem filter_notMem_of_disjoint {xs out : List α} (h : List.Disjoint xs out) :
    xs.filter (· ∉ out) = xs :=
  List.filter_eq_self.mpr fun x hx => by simpa using h hx

theorem filter_notMem_twice (xs out : List α) :
    (xs.filter (· ∉ out)).filter (· ∉ out) = xs.filter (· ∉ out) := by
  simp [List.filter_filter]

/-- Lists that agree outside some members agree outside more of them. -/
theorem filter_notMem_mono {xs ys out out' : List α} (hsub : out ⊆ out')
    (h : xs.filter (· ∉ out) = ys.filter (· ∉ out)) :
    xs.filter (· ∉ out') = ys.filter (· ∉ out') := by
  -- Leaving out the smaller set first makes no difference.
  have hmore : ∀ zs : List α, (zs.filter (· ∉ out)).filter (· ∉ out') = zs.filter (· ∉ out') := by
    intro zs
    rw [List.filter_filter]
    refine List.filter_congr fun z _ => ?_
    by_cases hz : z ∈ out'
    · simp [hz]
    · have hz' : z ∉ out := fun hmem => hz (hsub hmem)
      simp [hz, hz']
  rw [← hmore xs, h, hmore ys]

/-- A list that shows another one in order shows each part of it in order. -/
theorem filter_mem_filter {xs zs : List α} (p : α → Bool) (h : xs.filter (· ∈ zs) = zs) :
    xs.filter (· ∈ zs.filter p) = zs.filter p := by
  conv_rhs => rw [← h, List.filter_filter]
  exact List.filter_congr fun x _ => by simp [and_comm]

section

variable {below block above : List α} (h : (below ++ block ++ above).Nodup)

include h

omit [DecidableEq α] in
theorem disjoint_of_nodup_block :
    List.Disjoint below block ∧ List.Disjoint above block ∧ List.Disjoint below above := by
  rw [List.append_assoc, List.nodup_append', List.nodup_append'] at h
  obtain ⟨-, ⟨-, -, hblock⟩, hbelow⟩ := h
  rw [List.disjoint_append_right] at hbelow
  exact ⟨hbelow.1, List.disjoint_symm hblock, hbelow.2⟩

/-- Leaving out a block closes the gap. -/
theorem filter_notMem_block :
    (below ++ block ++ above).filter (· ∉ block) = below ++ above := by
  obtain ⟨hbelow, habove, -⟩ := disjoint_of_nodup_block h
  have hblock : block.filter (· ∉ block) = [] := filter_notMem_of_subset (List.Subset.refl block)
  rw [List.filter_append, List.filter_append, hblock, List.append_nil,
    filter_notMem_of_disjoint hbelow, filter_notMem_of_disjoint habove]

/-- Leaving out all but a block. -/
theorem filter_mem_block : (below ++ block ++ above).filter (· ∈ block) = block := by
  obtain ⟨hbelow, habove, -⟩ := disjoint_of_nodup_block h
  have hnone : ∀ part : List α, List.Disjoint part block → part.filter (· ∈ block) = [] :=
    fun part hpart => List.filter_eq_nil_iff.mpr fun x hx => by simpa using hpart hx
  have hself : block.filter (· ∈ block) = block :=
    List.filter_eq_self.mpr fun x hx => by simpa using hx
  rw [List.filter_append, List.filter_append, hnone below hbelow, hnone above habove, hself,
    List.nil_append, List.append_nil]

end

end ZOrder
