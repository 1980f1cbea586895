/-
  ZOrder.Proofs.Toml.Scan

  The tokens of a text, part by part. `Scans cs ts rest` says that the tokens `ts` are
  read off the characters `cs` and `rest` is left; reading one part and then the next is
  reading both. A text has no fewer characters than tokens, so the bound on the tokens of
  a whole text is never met.
-/

import Mathlib.Data.List.Basic
import ZOrder.Toml.Token

namespace ZOrder.Toml

/-- A character that stands for itself between double quotes. -/
def isQuotable (c : Char) : Bool := isTextChar c && c != '"' && c != '\\'

variable {cs cs' rest rest' : List Char} {ts ts' : List Token} {t : Token} {c : Char}

/-- The tokens `ts` are read off the characters `cs`, one step for each, and the characters
`rest` are left. -/
structure Scans (cs : List Char) (ts : List Token) (rest : List Char) : Prop where
  length_le : ts.length + rest.length ≤ cs.length
  tokens_eq : ∀ fuel, tokensFrom (fuel + ts.length) cs = (tokensFrom fuel rest).map (ts ++ ·)

namespace Scans

theorem nil (cs : List Char) : Scans cs [] cs where
  length_le := by simp
  tokens_eq fuel := by simp

theorem of_scan (h : scan c cs = some (t, rest)) (hlen : rest.length ≤ cs.length) :
    Scans (c :: cs) [t] rest where
  length_le := by
    rw [List.length_singleton, List.length_cons]
    omega
  tokens_eq fuel := by
    rw [List.length_singleton, tokensFrom, h]
    rfl

theorem trans (h : Scans cs ts rest) (h' : Scans rest ts' rest') : Scans cs (ts ++ ts') rest' where
  length_le := by
    have hfirst := h.length_le
    have hsecond := h'.length_le
    rw [List.length_append]
    omega
  tokens_eq fuel := by
    have hfuel : fuel + (ts ++ ts').length = fuel + ts'.length + ts.length := by
      rw [List.length_append]
      omega
    rw [hfuel, h.tokens_eq, h'.tokens_eq, Option.map_map]
    congr 1
    funext us
    simp

theorem cons (h : Scans cs [t] rest) (h' : Scans rest ts rest') : Scans cs (t :: ts) rest' :=
  h.trans h'

/-- The tokens of a text that is read to its end. -/
theorem tokensFrom_eq (h : Scans cs ts []) : tokensFrom cs.length cs = some ts := by
  have hlen := h.length_le
  have hfuel : cs.length = cs.length - ts.length + ts.length := by
    rw [List.length_nil] at hlen
    omega
  have hnil : tokensFrom (cs.length - ts.length) [] = some [] := by rw [tokensFrom]
  rw [hfuel, h.tokens_eq, hnil, Option.map_some, List.append_nil]

/-! ## Marks -/

theorem newline (rest : List Char) : Scans ('\n' :: rest) [.newline] rest :=
  of_scan rfl (Nat.le_refl _)

theorem equals (rest : List Char) : Scans ('=' :: rest) [.equals] rest :=
  of_scan rfl (Nat.le_refl _)

theorem leftBrace (rest : List Char) : Scans ('\x7b' :: rest) [.leftBrace] rest :=
  of_scan rfl (Nat.le_refl _)

theorem rightBrace (rest : List Char) : Scans ('\x7d' :: rest) [.rightBrace] rest :=
  of_scan rfl (Nat.le_refl _)

/-- A single space. -/
theorem space (hc : isSpace c = false) (rest : List Char) :
    Scans (' ' :: c :: rest) [.blanks [' ']] (c :: rest) := by
  refine of_scan ?_ (Nat.le_refl _)
  have htake : (c :: rest).takeWhile isSpace = [] := by rw [List.takeWhile_cons, hc]; rfl
  have hdrop : (c :: rest).dropWhile isSpace = c :: rest := by rw [List.dropWhile_cons, hc]; rfl
  have hspace : isSpace ' ' = true := rfl
  rw [scan, if_pos hspace, htake, hdrop]
  all_goals decide

/-! ## Words and texts -/

/-- A bare word ends where another character follows. -/
theorem word (hne : cs ≠ []) (hcs : ∀ d ∈ cs, isWordChar d = true) (hc : isWordChar c = false)
    (rest : List Char) : Scans (cs ++ c :: rest) [.word cs] (c :: rest) := by
  obtain ⟨d, ds, rfl⟩ := List.exists_cons_of_ne_nil hne
  have hd := hcs d List.mem_cons_self
  have hds : ∀ x ∈ ds, isWordChar x = true := fun x hx => hcs x (List.mem_cons_of_mem d hx)
  rw [List.cons_append]
  refine of_scan ?_ (by simp)
  have htake : (ds ++ c :: rest).takeWhile isWordChar = ds := by
    rw [List.takeWhile_append_of_pos hds, List.takeWhile_cons, hc]
    simp
  have hdrop : (ds ++ c :: rest).dropWhile isWordChar = c :: rest := by
    rw [List.dropWhile_append_of_pos hds, List.dropWhile_cons, hc]
    simp
  -- No mark is a character of a word.
  have hmark : ∀ m : Char, isWordChar m = false → d ≠ m := by
    rintro m hm rfl
    rw [hm] at hd
    cases hd
  have hspace : isSpace d = false := by
    rw [Bool.eq_false_iff]
    intro hs
    rcases (by simpa [isSpace] using hs : d = ' ' ∨ d = '\t') with rfl | rfl
    · exact hmark ' ' rfl rfl
    · exact hmark '\t' rfl rfl
  rw [scan, hspace, if_neg Bool.false_ne_true, if_pos hd, htake, hdrop]
  all_goals exact hmark _ rfl

theorem basicText_append (seen : List Char) (hcs : ∀ d ∈ cs, isQuotable d = true)
    (rest : List Char) :
    basicText seen (cs ++ '"' :: rest) = some (.text (seen.reverse ++ cs) false, rest) := by
  induction cs generalizing seen with
  | nil => rw [List.nil_append, basicText, List.append_nil]
  | cons d ds ih =>
    obtain ⟨⟨htext, hquote⟩, hslash⟩ : (isTextChar d = true ∧ d ≠ '"') ∧ d ≠ '\\' := by
      simpa [isQuotable] using hcs d List.mem_cons_self
    have hstep : basicText seen (d :: (ds ++ '"' :: rest)) =
        basicText (d :: seen) (ds ++ '"' :: rest) := by
      rw [basicText, if_pos htext]
      · exact hquote
      · intro _ _ _ _ _ heq
        exact absurd heq hslash
      · intro _ _ _ _ _ _ _ _ _ heq
        exact absurd heq hslash
      · intro _ _ heq
        exact absurd heq hslash
    rw [List.cons_append, hstep, ih (d :: seen) fun x hx => hcs x (List.mem_cons_of_mem d hx)]
    simp

/-- A text on one line between double quotes, nothing in it written with a backslash. -/
theorem text (hne : cs ≠ []) (hcs : ∀ d ∈ cs, isQuotable d = true) (rest : List Char) :
    Scans ('"' :: (cs ++ '"' :: rest)) [.text cs false] rest := by
  obtain ⟨d, ds, rfl⟩ := List.exists_cons_of_ne_nil hne
  have hquote : d ≠ '"' := by
    rintro rfl
    cases hcs _ List.mem_cons_self
  refine of_scan ?_ (by simp; omega)
  have hbasic := basicText_append [] hcs rest
  rw [List.cons_append] at hbasic ⊢
  rw [scan]
  · exact hbasic
  · intro rest' heq
    exact hquote (List.cons.inj heq).1

end Scans

end ZOrder.Toml
