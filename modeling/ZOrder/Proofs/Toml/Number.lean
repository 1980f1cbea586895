/-
  ZOrder.Proofs.Toml.Number

  The decimal digits of a number are read as the number. They are digits only, and no
  needless zero is in front of them, so they are neither a number of another base nor a
  fraction nor a date.
-/

import Mathlib.Data.List.Basic
import Mathlib.Tactic.IntervalCases
import ZOrder.Toml.Parser

namespace ZOrder.Toml

/-! ## The digits of a number -/

theorem isDigit_digitChar {d : Nat} (hd : d < 10) : (Nat.digitChar d).isDigit = true := by
  interval_cases d <;> rfl

theorem digit?_digitChar {d : Nat} (hd : d < 10) : Text.digit? 10 (Nat.digitChar d) = some d := by
  interval_cases d <;> rfl

theorem isDigit_of_mem_toDigits {n : Nat} {c : Char} (hc : c ∈ Nat.toDigits 10 n) :
    c.isDigit = true := by
  induction n using Nat.strongRecOn with
  | _ n ih =>
    rw [Nat.toDigits_eq_if (by decide)] at hc
    split at hc
    · next hn =>
      rw [List.mem_singleton.mp hc]
      exact isDigit_digitChar hn
    · next hn =>
      rcases List.mem_append.mp hc with hc | hc
      · exact ih (n / 10) (by omega) hc
      · rw [List.mem_singleton.mp hc]
        exact isDigit_digitChar (by omega)

/-- No zero is in front of the digits of a number that is not zero. -/
theorem head_toDigits {n : Nat} (hn : 0 < n) :
    ∃ c cs, Nat.toDigits 10 n = c :: cs ∧ c ≠ '0' := by
  induction n using Nat.strongRecOn with
  | _ n ih =>
    rw [Nat.toDigits_eq_if (by decide)]
    split
    · next hlt =>
      refine ⟨_, [], rfl, ?_⟩
      interval_cases n <;> decide
    · next hlt =>
      obtain ⟨c, cs, hcs, hc⟩ := ih (n / 10) (by omega) (by omega)
      exact ⟨c, cs ++ [_], by rw [hcs, List.cons_append], hc⟩

theorem digitsValue?_append (base : Nat) (cs : List Char) (c : Char) :
    Text.digitsValue? base (cs ++ [c]) =
      (Text.digitsValue? base cs).bind fun n => (Text.digit? base c).map (n * base + ·) := by
  simp [Text.digitsValue?, List.foldlM_append]

theorem digitsValue?_toDigits (n : Nat) : Text.digitsValue? 10 (Nat.toDigits 10 n) = some n := by
  induction n using Nat.strongRecOn with
  | _ n ih =>
    rw [Nat.toDigits_eq_if (by decide)]
    split
    · next hlt => simp [Text.digitsValue?, digit?_digitChar hlt]
    · next hlt =>
      have hlast : n % 10 < 10 := by omega
      have hsum : n / 10 * 10 + n % 10 = n := by omega
      rw [digitsValue?_append, ih (n / 10) (by omega), Option.bind_some, digit?_digitChar hlast,
        Option.map_some, hsum]

/-! ## Reading digits -/

/-- Among digits there is no other character. -/
theorem not_mem_of_isDigit {cs : List Char} (hcs : ∀ c ∈ cs, c.isDigit = true) {a : Char}
    (ha : a.isDigit = false) : a ∉ cs := by
  intro hmem
  rw [hcs a hmem] at ha
  cases ha

theorem digit?_of_isDigit {c : Char} (hc : c.isDigit = true) :
    (Text.digit? 10 c).isSome = true := by
  have hle : '0'.val.toNat ≤ c.val.toNat ∧ c.val.toNat ≤ '9'.val.toNat := by
    simpa [Char.isDigit, UInt32.le_iff_toNat_le] using hc
  have hrange : '0' ≤ c ∧ c ≤ '9' := by
    simpa [Char.le_def, UInt32.le_iff_toNat_le] using hle
  have hlt : c.toNat - 48 < 10 := by
    have hnine : c.toNat ≤ 57 := hle.2
    omega
  rw [Text.digit?, if_pos hrange]
  simp [Option.filter, hlt]

/-- After a first digit that is no zero, all digits are split off. -/
theorem digitsFrom_of_isDigit {cs : List Char} (hcs : ∀ c ∈ cs, c.isDigit = true) :
    digitsFrom 10 false ⟨false, false, false⟩ cs = some (cs, []) := by
  induction cs with
  | nil => rfl
  | cons c cs ih =>
    have hc := digit?_of_isDigit (hcs c List.mem_cons_self)
    rw [digitsFrom]
    simp [hc, ih fun d hd => hcs d (List.mem_cons_of_mem c hd)]

theorem digitsFrom_toDigits (n : Nat) :
    digitsFrom 10 false {} (Nat.toDigits 10 n) = some (Nat.toDigits 10 n, []) := by
  rcases Nat.eq_zero_or_pos n with rfl | hn
  · rfl
  · have hdigits : ∀ c ∈ Nat.toDigits 10 n, c.isDigit = true := fun c => isDigit_of_mem_toDigits
    obtain ⟨c, cs, hcs, hc⟩ := head_toDigits hn
    rw [hcs] at hdigits ⊢
    have hfirst := digit?_of_isDigit (hdigits c List.mem_cons_self)
    have hrest := digitsFrom_of_isDigit fun d hd => hdigits d (List.mem_cons_of_mem c hd)
    rw [digitsFrom]
    simp [hc, hfirst, hrest]

theorem signedDigits_toDigits (n : Nat) :
    signedDigits false (Nat.toDigits 10 n) = some (false, Nat.toDigits 10 n, []) := by
  have hminus : ∀ rest, Nat.toDigits 10 n ≠ '-' :: rest := by
    intro rest hcs
    have hdash : '-' ∉ Nat.toDigits 10 n :=
      not_mem_of_isDigit (fun c => isDigit_of_mem_toDigits) rfl
    exact hdash (hcs ▸ List.mem_cons_self)
  rw [signedDigits, digitsFrom_toDigits]
  · rfl
  · exact hminus

/-- The digits of a number are read as the number, if it has at most 64 bits with the sign. -/
theorem decimal?_toDigits (n : Nat) : decimal? (Nat.toDigits 10 n) = inRange? n := by
  rw [decimal?, signedDigits_toDigits]
  dsimp only
  rw [digitsValue?_toDigits, Option.bind_some, if_neg Bool.false_ne_true]

/-! ## Words of digits -/

section

variable {cs : List Char} {t : Token} {ts : List Token}

theorem number_of_isDigit (hcs : ∀ c ∈ cs, c.isDigit = true) (hperiod : t ≠ .period) :
    number cs (t :: ts) = (decimal? cs).map fun n => (.integer n, t :: ts) := by
  have hnot : ∀ a : Char, a.isDigit = false → a ∉ cs := fun a => not_mem_of_isDigit hcs
  have hfraction : (cs.contains 'e' || cs.contains 'E') = false := by
    simp [hnot 'e' rfl, hnot 'E' rfl]
  have hword : cs ∉ ["inf".toList, "-inf".toList, "nan".toList, "-nan".toList] := by
    intro hmem
    have hn : 'n' ∈ cs := by
      simp only [List.mem_cons, List.not_mem_nil, or_false] at hmem
      rcases hmem with rfl | rfl | rfl | rfl <;> decide
    exact hnot 'n' rfl hn
  rw [number.eq_def]
  split
  · exact absurd (by simp) (hnot 'x' rfl)
  · exact absurd (by simp) (hnot 'o' rfl)
  · exact absurd (by simp) (hnot 'b' rfl)
  · rw [hfraction, if_neg Bool.false_ne_true]
    split
    · next heq => exact absurd (List.cons.inj heq).1 hperiod
    · rw [if_neg hword]

/-- A word of digits is a decimal integer, if neither a period nor a colon follows. -/
theorem wordValue_of_isDigit (hne : cs ≠ []) (hcs : ∀ c ∈ cs, c.isDigit = true)
    (hperiod : t ≠ .period) (hcolon : t ≠ .colon) :
    wordValue cs (t :: ts) = (decimal? cs).map fun n => (.integer n, t :: ts) := by
  have hnot : ∀ a : Char, a.isDigit = false → a ∉ cs := fun a => not_mem_of_isDigit hcs
  have hdate : looksLikeDate cs = false := by
    have hdash : '-' ∉ cs.tail := fun hmem => hnot '-' rfl (List.mem_of_mem_tail hmem)
    simp [looksLikeDate, hnot 'T' rfl, hnot 't' rfl, hdash]
  have hname : ∀ name : List Char, 'e' ∈ name ∨ 'n' ∈ name → cs ≠ name := by
    rintro name (hmem | hmem) rfl
    · exact hnot 'e' rfl hmem
    · exact hnot 'n' rfl hmem
  have htrue : cs ≠ "true".toList := hname _ (.inl (by decide))
  have hfalse : cs ≠ "false".toList := hname _ (.inl (by decide))
  have hinf : cs ≠ "inf".toList := hname _ (.inr (by decide))
  have hnan : cs ≠ "nan".toList := hname _ (.inr (by decide))
  obtain ⟨c, rest, rfl⟩ := List.exists_cons_of_ne_nil hne
  have hfirst : c = '-' ∨ c.isDigit = true := .inr (hcs c List.mem_cons_self)
  rw [wordValue.eq_def, if_neg htrue, if_neg hfalse, if_neg (not_or.mpr ⟨hinf, hnan⟩)]
  dsimp only
  rw [if_pos hfirst, numberOrDate.eq_def, hdate, if_neg Bool.false_ne_true]
  split
  · next heq => exact absurd (List.cons.inj heq).1 hcolon
  · exact number_of_isDigit hcs hperiod

/-- The digits of a number are a value: the number, if it has at most 64 bits with the sign. -/
theorem wordValue_toDigits (n : Nat) (hperiod : t ≠ .period) (hcolon : t ≠ .colon) :
    wordValue (Nat.toDigits 10 n) (t :: ts) =
      (inRange? n).map fun n => (.integer n, t :: ts) := by
  have hne : Nat.toDigits 10 n ≠ [] := Nat.toDigits_ne_nil
  rw [wordValue_of_isDigit hne (fun c => isDigit_of_mem_toDigits) hperiod hcolon,
    decimal?_toDigits]

end

end ZOrder.Toml
