/-
  ZOrder.Proofs.SettingsFile.Lines

  Lines of settings are read back as the entries they were written for: each line is a
  key, an equals sign and a value, and holds its own tokens and no others. Only numbers
  that need more than 64 bits with the sign can not be read back.
-/

import ZOrder.Proofs.Text.Utf8
import ZOrder.Proofs.Toml.Number
import ZOrder.Proofs.Toml.Scan
import ZOrder.SettingsFile

namespace ZOrder.SettingsFile

open Toml (Token Value Scans Section)

/-! ## Entries -/

/-- The key of a line. -/
def Line.key : Line → String
  | .layer _ => "default_layer"
  | .position _ => "default_position"
  | .demote _ => "demote_on_focus"
  | .depth _ => "max_event_depth"

/-- The value of a line. -/
def Line.value : Line → Value
  | .layer l => .string l.name
  | .position .top => .string "top"
  | .position .bottom => .string "bottom"
  | .position (.index n) => .inline [("index", .integer n.toNat)]
  | .demote b => .boolean b
  | .depth n => .integer n.toNat

/-- The entry of a line. -/
def Line.entry (l : Line) : String × Value := (l.key, l.value)

/-- The number of a line, if it has one, is an integer of a TOML text, which has 64 bits with
the sign. -/
def Line.Writable : Line → Prop
  | .position (.index n) | .depth n => n.toNat < 2 ^ 63
  | _ => True

instance : DecidablePred Line.Writable
  | .position (.index n) => inferInstanceAs (Decidable (n.toNat < 2 ^ 63))
  | .depth n => inferInstanceAs (Decidable (n.toNat < 2 ^ 63))
  | .layer _ | .position .top | .position .bottom | .demote _ => .isTrue trivial

/-- The value that is read off a line. -/
def Line.value? : Line → Option Value
  | .position (.index n) => (Toml.inRange? n.toNat).map fun n => .inline [("index", .integer n)]
  | .depth n => (Toml.inRange? n.toNat).map .integer
  | l => some l.value

theorem inRange?_natCast (n : Nat) :
    Toml.inRange? n = if n < 2 ^ 63 then some (n : Int) else none := by
  have hiff : (-0x8000000000000000 ≤ (n : Int) ∧ (n : Int) < 0x8000000000000000) ↔ n < 2 ^ 63 := by
    omega
  rw [Toml.inRange?]
  simp only [hiff]

theorem Line.value?_eq (l : Line) : l.value? = if l.Writable then some l.value else none := by
  have hnumber (n : UInt64) (f : Int → Value) : (Toml.inRange? n.toNat).map f =
      if n.toNat < 2 ^ 63 then some (f n.toNat) else none := by
    rw [inRange?_natCast, apply_ite (Option.map f)]
    rfl
  cases l with
  | layer l => rfl
  | demote b => rfl
  | depth n => exact hnumber n .integer
  | position p =>
    cases p with
    | top => rfl
    | bottom => rfl
    | index n => exact hnumber n fun m => .inline [("index", .integer m)]

/-! ## Tokens -/

/-- The tokens of the value of a line. -/
def Line.valueTokens : Line → List Token
  | .layer l => [.text l.name.toList false]
  | .position .top => [.text "top".toList false]
  | .position .bottom => [.text "bottom".toList false]
  | .position (.index n) =>
    [.leftBrace, .blanks [' '], .word "index".toList, .blanks [' '], .equals, .blanks [' '],
      .word (Nat.toDigits 10 n.toNat), .blanks [' '], .rightBrace]
  | .demote b => [.word (if b then "true" else "false").toList]
  | .depth n => [.word (Nat.toDigits 10 n.toNat)]

/-- The tokens of a line. -/
def Line.tokens (l : Line) : List Token :=
  .word l.key.toList :: .blanks [' '] :: .equals :: .blanks [' '] ::
    (l.valueTokens ++ [.newline])

/-- The characters of the value of a line. -/
def Line.valueText : Line → List Char
  | .layer l => '"' :: (l.name.toList ++ ['"'])
  | .position .top => '"' :: ("top".toList ++ ['"'])
  | .position .bottom => '"' :: ("bottom".toList ++ ['"'])
  | .position (.index n) =>
    '\x7b' :: ' ' :: ("index".toList ++ ' ' :: '=' :: ' ' ::
      (Nat.toDigits 10 n.toNat ++ [' ', '\x7d']))
  | .demote b => (if b then "true" else "false").toList
  | .depth n => Nat.toDigits 10 n.toNat

theorem toList_toString (n : Nat) : (toString n).toList = Nat.toDigits 10 n := by
  show n.repr.toList = _
  rw [Nat.repr_eq_ofList_toDigits, String.toList_ofList]

theorem toList_inQuotes (s : String) : (inQuotes s).toList = '"' :: (s.toList ++ ['"']) := by
  rw [inQuotes, String.toList_append, String.toList_append]
  rfl

/-- A line of a key and a value. -/
theorem toList_line (key : String) {start value stop : String} {cs : List Char}
    (hstart : start.toList = key.toList ++ [' ', '=', ' ']) (hvalue : value.toList = cs)
    (hstop : stop.toList = ['\n']) :
    (start ++ value ++ stop).toList = key.toList ++ ' ' :: '=' :: ' ' :: (cs ++ ['\n']) := by
  rw [String.toList_append, String.toList_append, hstart, hvalue, hstop, List.append_assoc,
    List.append_assoc]
  rfl

theorem Line.toList_text (l : Line) :
    l.text.toList = l.key.toList ++ ' ' :: '=' :: ' ' :: (l.valueText ++ ['\n']) := by
  have hstop : "\n".toList = ['\n'] := rfl
  cases l with
  | layer l =>
    exact toList_line "default_layer" (by decide) (toList_inQuotes l.name) hstop
  | demote b => exact toList_line "demote_on_focus" (by decide) rfl hstop
  | depth n =>
    exact toList_line "max_event_depth" (by decide) (toList_toString n.toNat) hstop
  | position p =>
    cases p with
    | top => rfl
    | bottom => rfl
    | index n =>
      -- The braces are written together with the key and the line end.
      have hstart : "default_position = \x7b index = ".toList =
          "default_position".toList ++ ([' ', '=', ' '] ++ '\x7b' :: ' ' ::
            ("index".toList ++ [' ', '=', ' '])) := by decide
      have hbrace : " \x7d\n".toList = [' ', '\x7d', '\n'] := rfl
      show ("default_position = \x7b index = " ++ toString n.toNat ++ " \x7d\n").toList = _
      rw [String.toList_append, String.toList_append, hstart, hbrace, toList_toString]
      simp only [key, valueText, List.append_assoc, List.cons_append, List.nil_append]

theorem isWordChar_of_isDigit {c : Char} (hc : c.isDigit = true) : Toml.isWordChar c = true := by
  simp [Toml.isWordChar, Char.isAlphanum, hc]

theorem isSpace_of_isWordChar {c : Char} (hc : Toml.isWordChar c = true) :
    Toml.isSpace c = false := by
  rw [Bool.eq_false_iff]
  intro hs
  rcases (by simpa [Toml.isSpace] using hs : c = ' ' ∨ c = '\t') with rfl | rfl
  · cases hc
  · cases hc

/-- A space and a word. -/
theorem scans_space_word {cs : List Char} {c : Char} (hne : cs ≠ [])
    (hcs : cs.all Toml.isWordChar = true) (hc : Toml.isWordChar c = false) (rest : List Char) :
    Scans (' ' :: (cs ++ c :: rest)) [.blanks [' '], .word cs] (c :: rest) := by
  rw [List.all_eq_true] at hcs
  have hword := Scans.word hne hcs hc rest
  obtain ⟨d, ds, rfl⟩ := List.exists_cons_of_ne_nil hne
  have hd := isSpace_of_isWordChar (hcs d List.mem_cons_self)
  exact .cons (.space hd _) hword

/-- A space and the digits of a number. -/
theorem scans_space_digits (n : Nat) {c : Char} (hc : Toml.isWordChar c = false)
    (rest : List Char) :
    Scans (' ' :: (Nat.toDigits 10 n ++ c :: rest)) [.blanks [' '], .word (Nat.toDigits 10 n)]
      (c :: rest) := by
  have hdigits : (Nat.toDigits 10 n).all Toml.isWordChar = true := by
    rw [List.all_eq_true]
    intro d hd
    exact isWordChar_of_isDigit (Toml.isDigit_of_mem_toDigits hd)
  exact scans_space_word Nat.toDigits_ne_nil hdigits hc rest

theorem quotable_name (l : Layer) :
    l.name.toList ≠ [] ∧ l.name.toList.all Toml.isQuotable = true := by
  cases l <;> decide

/-- A space and a name between double quotes. -/
theorem scans_space_quoted {cs : List Char} (hne : cs ≠ [])
    (hcs : cs.all Toml.isQuotable = true) (rest : List Char) :
    Scans (' ' :: '"' :: (cs ++ ['"']) ++ rest) [.blanks [' '], .text cs false] rest := by
  have htext := Scans.text hne (List.all_eq_true.mp hcs) rest
  have hspace : Toml.isSpace '"' = false := rfl
  rw [List.cons_append, List.cons_append, List.append_assoc]
  exact .cons (.space hspace _) htext

/-- The value of a line, after the space in front of it. -/
theorem Line.scans_value (l : Line) (rest : List Char) :
    Scans (' ' :: (l.valueText ++ '\n' :: rest)) (.blanks [' '] :: l.valueTokens)
      ('\n' :: rest) := by
  have hnewline : Toml.isWordChar '\n' = false := rfl
  cases l with
  | layer l => exact scans_space_quoted (quotable_name l).1 (quotable_name l).2 _
  | demote b =>
    cases b with
    | true => exact scans_space_word (by decide) (by decide) hnewline _
    | false => exact scans_space_word (by decide) (by decide) hnewline _
  | depth n => exact scans_space_digits n.toNat hnewline rest
  | position p =>
    cases p with
    | top => exact scans_space_quoted (by decide) (by decide) _
    | bottom => exact scans_space_quoted (by decide) (by decide) _
    | index n =>
      have hspace : Toml.isSpace '\x7b' = false := rfl
      have hblank : Toml.isWordChar ' ' = false := rfl
      have hequals : Toml.isSpace '=' = false := rfl
      have hbrace : Toml.isSpace '\x7d' = false := rfl
      simp only [valueText, valueTokens, List.cons_append, List.append_assoc, List.nil_append]
      refine .cons (.space hspace _) (.cons (.leftBrace _) ?_)
      refine (scans_space_word (by decide) (by decide) hblank _).trans ?_
      refine .cons (.space hequals _) (.cons (.equals _) ?_)
      refine (scans_space_digits n.toNat hblank _).trans ?_
      exact .cons (.space hbrace _) (.rightBrace _)

theorem Line.key_mem_keys (l : Line) : l.key ∈ keys := by
  cases l <;> simp [key, keys]

theorem Line.word_key (l : Line) :
    l.key.toList ≠ [] ∧ l.key.toList.all Toml.isWordChar = true := by
  have hkeys : ∀ key ∈ keys, key.toList ≠ [] ∧ key.toList.all Toml.isWordChar = true := by
    decide
  exact hkeys l.key l.key_mem_keys

/-- A line holds its own tokens. -/
theorem Line.scans (l : Line) (rest : List Char) :
    Scans (l.text.toList ++ rest) l.tokens rest := by
  have hblank : Toml.isWordChar ' ' = false := rfl
  have hkey := Scans.word l.word_key.1 (List.all_eq_true.mp l.word_key.2) hblank
  have hequals : Toml.isSpace '=' = false := rfl
  rw [l.toList_text]
  simp only [List.append_assoc, List.cons_append, List.nil_append]
  refine .cons (hkey _) (.cons (.space hequals _) (.cons (.equals _) ?_))
  exact (l.scans_value rest).trans (.newline rest)

theorem scans_lines (ls : List Line) :
    Scans (ls.flatMap fun l => l.text.toList) (ls.flatMap Line.tokens) [] := by
  induction ls with
  | nil => exact .nil []
  | cons l ls ih =>
    rw [List.flatMap_cons, List.flatMap_cons]
    exact (l.scans _).trans ih

/-- A character that is neither part of a line end of two characters nor the mark of an
encoding. -/
def isPlain (c : Char) : Bool := c != '\r' && c != '\ufeff'

theorem isPlain_of_isWordChar {c : Char} (hc : Toml.isWordChar c = true) : isPlain c = true := by
  have hreturn : c ≠ '\r' := by
    rintro rfl
    cases hc
  have hmark : c ≠ '\ufeff' := by
    rintro rfl
    cases hc
  simp [isPlain, hreturn, hmark]

theorem Line.all_isPlain_valueText (l : Line) : l.valueText.all isPlain = true := by
  have hdigits (n : Nat) : (Nat.toDigits 10 n).all isPlain = true := by
    rw [List.all_eq_true]
    intro c hc
    exact isPlain_of_isWordChar (isWordChar_of_isDigit (Toml.isDigit_of_mem_toDigits hc))
  cases l with
  | layer l => cases l <;> decide
  | demote b => cases b <;> decide
  | depth n => exact hdigits n.toNat
  | position p =>
    cases p with
    | top => decide
    | bottom => decide
    | index n =>
      have hindex : "index".toList.all isPlain = true := by decide
      have hend : [' ', '\x7d'].all isPlain = true := by decide
      simp only [valueText, List.all_cons, List.all_append, hindex, hdigits, hend]
      decide

theorem Line.all_isPlain_text (l : Line) : l.text.toList.all isPlain = true := by
  have hkey : l.key.toList.all isPlain = true := by
    rw [List.all_eq_true]
    intro c hc
    exact isPlain_of_isWordChar (List.all_eq_true.mp l.word_key.2 c hc)
  rw [l.toList_text]
  simp only [List.all_cons, List.all_append, hkey, l.all_isPlain_valueText]
  decide

theorem plainLineEnds_eq {cs : List Char} (hcs : ∀ c ∈ cs, isPlain c = true) :
    Toml.plainLineEnds cs = cs := by
  induction cs with
  | nil => rfl
  | cons c cs ih =>
    have hc : c ≠ '\r' := by
      rintro rfl
      cases hcs _ List.mem_cons_self
    rw [Toml.plainLineEnds, ih fun d hd => hcs d (List.mem_cons_of_mem c hd)]
    intro rest heq
    exact absurd heq hc

theorem dropMark_eq {cs : List Char} (hcs : ∀ c ∈ cs, isPlain c = true) :
    Toml.dropMark cs = cs := by
  rw [Toml.dropMark.eq_def]
  split
  · cases hcs _ List.mem_cons_self
  · rfl

theorem toList_textOf (ls : List Line) :
    (textOf ls).toList = ls.flatMap fun l => l.text.toList := by
  rw [textOf, String.toList_join, List.flatMap_map]

/-- The text of some lines holds the tokens of each line in turn. -/
theorem tokens_textOf (ls : List Line) :
    Toml.tokens (textOf ls).toList = some (ls.flatMap Line.tokens) := by
  have hplain : ∀ c ∈ (textOf ls).toList, isPlain c = true := by
    intro c hc
    rw [toList_textOf] at hc
    obtain ⟨l, -, hc⟩ := List.mem_flatMap.mp hc
    exact List.all_eq_true.mp l.all_isPlain_text c hc
  rw [Toml.tokens, dropMark_eq hplain, plainLineEnds_eq hplain, toList_textOf]
  exact (scans_lines ls).tokensFrom_eq

/-! ## Values and sections -/

theorem path?_word (cs b : List Char) (ts : List Token) :
    Toml.path? (.word cs :: .blanks b :: .equals :: ts) =
      some ([String.ofList cs], .equals :: ts) := rfl

theorem value_digits (n fuel : Nat) (b : List Char) (ts : List Token) :
    Toml.value (fuel + 1) (.word (Nat.toDigits 10 n) :: .blanks b :: ts) =
      (Toml.inRange? n).map fun m => (.integer m, .blanks b :: ts) := by
  rw [Toml.value, Toml.wordValue_toDigits n (by simp) (by simp)]

/-- The table between braces, with one number for one key. -/
theorem value_table (cs : List Char) {digits : List Char} {number : Option Int} {fuel : Nat}
    {ts : List Token}
    (hnumber : Toml.value (fuel + 1) (.word digits :: .blanks [' '] :: .rightBrace :: ts) =
      number.map fun m => (.integer m, .blanks [' '] :: .rightBrace :: ts)) :
    Toml.value (fuel + 3) (.leftBrace :: .blanks [' '] :: .word cs :: .blanks [' '] :: .equals ::
        .blanks [' '] :: .word digits :: .blanks [' '] :: .rightBrace :: ts) =
      number.map fun m => (.inline [(String.ofList cs, .integer m)], ts) := by
  rw [Toml.value]
  simp only [Toml.skipBlanks, Toml.entries, path?_word, hnumber]
  cases number with
  | none => rfl
  | some m => rfl

/-- The value of a line is read off its tokens, up to the end of the line. -/
theorem Line.value_tokens (l : Line) (fuel : Nat) (ts : List Token) :
    Toml.value (fuel + 3) (l.valueTokens ++ .newline :: ts) =
      l.value?.map fun v => (v, .newline :: ts) := by
  cases l with
  | layer l =>
    rw [valueTokens, List.cons_append, Toml.value, String.ofList_toList]
    rfl
  | demote b =>
    cases b with
    | true => rfl
    | false => rfl
  | depth n =>
    rw [valueTokens, List.cons_append, Toml.value, List.nil_append,
      Toml.wordValue_toDigits n.toNat (by simp) (by simp), value?, Option.map_map]
    rfl
  | position p =>
    cases p with
    | top => rfl
    | bottom => rfl
    | index n =>
      have htable := value_table "index".toList
        (value_digits n.toNat fuel [' '] (.rightBrace :: .newline :: ts))
      rw [String.ofList_toList] at htable
      rw [value?, Option.map_map]
      exact htable

/-- The entry that is read off a line. -/
def Line.entry? (l : Line) : Option (String × Value) := l.value?.map fun v => (l.key, v)

theorem Line.entryLine_tokens (l : Line) (ts : List Token) :
    Toml.entryLine (l.tokens ++ ts) = l.value?.map fun v => (([l.key], v), ts) := by
  obtain ⟨fuel, hfuel⟩ : ∃ fuel,
      2 * (l.valueTokens ++ .newline :: ts).length + 1 = fuel + 3 := by
    refine ⟨2 * (l.valueTokens ++ .newline :: ts).length - 2, ?_⟩
    rw [List.length_append, List.length_cons]
    omega
  have htokens : l.tokens ++ ts = .word l.key.toList :: .blanks [' '] :: .equals ::
      .blanks [' '] :: (l.valueTokens ++ .newline :: ts) := by
    simp [tokens]
  rw [htokens, Toml.entryLine]
  simp only [path?_word, String.ofList_toList, Toml.skipBlanks, Toml.expect, if_true,
    Option.bind_eq_bind, Option.bind_some, hfuel, l.value_tokens]
  cases l.value? with
  | none => rfl
  | some v => rfl

/-- Lines are read into the section without a header, one entry each. -/
theorem sectionsFrom_tokens (ls : List Line) (fuel : Nat) (seen : List (String × Value)) :
    Toml.sectionsFrom (fuel + ls.length + 1) ⟨[], false, seen⟩ (ls.flatMap Line.tokens) =
      (ls.mapM Line.entry?).map fun new => Toml.keep ⟨[], false, seen ++ new⟩ := by
  induction ls generalizing seen with
  | nil =>
    rw [List.flatMap_nil, List.mapM_nil]
    simp [Toml.sectionsFrom, Toml.skipLines]
  | cons l ls ih =>
    have hskip : Toml.skipLines (l.tokens ++ ls.flatMap Line.tokens) =
        some (l.tokens ++ ls.flatMap Line.tokens) := rfl
    have hentry := l.entryLine_tokens (ls.flatMap Line.tokens)
    have hstart : l.tokens ++ ls.flatMap Line.tokens = .word l.key.toList ::
        (l.tokens ++ ls.flatMap Line.tokens).tail := rfl
    rw [List.flatMap_cons, List.mapM_cons, List.length_cons, Line.entry?, ← Nat.add_assoc,
      Toml.sectionsFrom, hskip]
    rw [hstart] at hentry ⊢
    simp only [hentry]
    cases l.value? with
    | none => rfl
    | some v =>
      simp only [Option.map_some, Toml.addEntry, ih, Option.bind_eq_bind, Option.bind_some,
        Option.pure_def]
      cases ls.mapM Line.entry? with
      | none => rfl
      | some new => simp

theorem length_le_flatMap_tokens (ls : List Line) :
    ls.length ≤ (ls.flatMap Line.tokens).length := by
  induction ls with
  | nil => exact Nat.le_refl 0
  | cons l ls ih =>
    have hline : 1 ≤ l.tokens.length := by simp [Line.tokens]
    rw [List.flatMap_cons, List.length_append, List.length_cons]
    omega

/-- The sections of the text of some lines. -/
theorem sections_textOf (ls : List Line) :
    Toml.sections (textOf ls) =
      (ls.mapM Line.entry?).map fun entries => Toml.keep ⟨[], false, entries⟩ := by
  have hlen := length_le_flatMap_tokens ls
  have hfuel : (ls.flatMap Line.tokens).length + 1 =
      (ls.flatMap Line.tokens).length - ls.length + ls.length + 1 := by omega
  rw [Toml.sections, tokens_textOf]
  dsimp only
  rw [hfuel, sectionsFrom_tokens]
  rfl

theorem mapM_entry? {ls : List Line} (hls : ∀ l ∈ ls, l.Writable) :
    ls.mapM Line.entry? = some (ls.map Line.entry) := by
  induction ls with
  | nil => rfl
  | cons l ls ih =>
    rw [List.mapM_cons, Line.entry?, l.value?_eq, if_pos (hls l List.mem_cons_self),
      ih fun m hm => hls m (List.mem_cons_of_mem l hm)]
    rfl

theorem mapM_entry?_eq_none {ls : List Line} {l : Line} (hmem : l ∈ ls) (hl : ¬ l.Writable) :
    ls.mapM Line.entry? = none := by
  induction ls with
  | nil => cases hmem
  | cons m ls ih =>
    rw [List.mapM_cons]
    rcases List.mem_cons.mp hmem with rfl | hmem
    · rw [Line.entry?, l.value?_eq, if_neg hl]
      rfl
    · rw [ih hmem]
      cases m.entry? <;> rfl

end ZOrder.SettingsFile
