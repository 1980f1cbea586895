/-
  ZOrder.Proofs.SettingsFile.Entries

  Files that hold nothing but settings, each at most once. The order of the settings, and
  how they are spelled and spaced, does not matter: such a file stands for the values on
  its lines and the standard ones for the rest. It is refused only for a temporary band
  or, if the band is permanent, for no rounds of events.
-/

import Mathlib.Data.List.Induction
import ZOrder.Proofs.SettingsFile.Lines

namespace ZOrder

namespace Settings

/-! ## The check of settings -/

theorem validate_eq_temporary {s : Settings} {l : Layer} :
    s.validate = .error (.temporaryDefaultLayer l) ↔
      s.defaultLayer = l ∧ l.isTemporary = true := by
  rw [validate]
  by_cases htemp : s.defaultLayer.isTemporary = true
  · rw [if_pos htemp]
    constructor
    · intro heq
      cases heq
      exact ⟨rfl, htemp⟩
    · rintro ⟨rfl, -⟩
      rfl
  · rw [if_neg htemp]
    constructor
    · intro heq
      split at heq <;> cases heq
    · rintro ⟨rfl, hl⟩
      exact absurd hl htemp

theorem validate_eq_noEventDepth {s : Settings} :
    s.validate = .error .noEventDepth ↔
      s.defaultLayer.isTemporary = false ∧ s.maxEventDepth = 0 := by
  rw [validate]
  cases s.defaultLayer.isTemporary <;> by_cases hdepth : s.maxEventDepth = 0 <;> simp [hdepth]

theorem validate_eq_ok {s : Settings} :
    s.validate = .ok () ↔ s.defaultLayer.isTemporary = false ∧ s.maxEventDepth ≠ 0 := by
  rw [validate]
  cases s.defaultLayer.isTemporary <;> by_cases hdepth : s.maxEventDepth = 0 <;> simp [hdepth]

end Settings

namespace SettingsFile

open Toml (Value Section)

/-! ## Files of settings -/

/-- The band on a line. -/
def Line.layer? : Line → Option Layer
  | .layer l => some l
  | _ => none

/-- The place on a line. -/
def Line.position? : Line → Option Position
  | .position p => some p
  | _ => none

/-- The choice on a line whether windows leave the temporary bands. -/
def Line.demote? : Line → Option Bool
  | .demote b => some b
  | _ => none

/-- The number of rounds of events on a line. -/
def Line.depth? : Line → Option UInt64
  | .depth n => some n
  | _ => none

/-- The settings on some lines, the standard ones where they are left out. -/
def settingsOf (ls : List Line) : Settings :=
  let standard : Settings := {}
  { defaultLayer := (ls.findSome? Line.layer?).getD standard.defaultLayer
    defaultPosition := (ls.findSome? Line.position?).getD standard.defaultPosition
    demoteOnFocus := (ls.findSome? Line.demote?).getD standard.demoteOnFocus
    maxEventDepth := (ls.findSome? Line.depth?).getD standard.maxEventDepth }

/-- The bytes are a text that holds the entries of some lines and nothing else, however they
are spelled and spaced. -/
def Holds (bytes : List UInt8) (ls : List Line) : Prop :=
  ∃ text, Text.utf8 bytes = .ok text ∧
    Toml.sections text = some (Toml.keep ⟨[], false, ls.map Line.entry⟩)

/-- The text of lines whose numbers can be written holds their entries. -/
theorem holds_textOf {ls : List Line} (hls : ∀ l ∈ ls, l.Writable) :
    Holds (textOf ls).toUTF8.toList ls := by
  refine ⟨textOf ls, Text.utf8_toUTF8 _, ?_⟩
  rw [sections_textOf, mapM_entry? hls]
  rfl

/-- A number that is no integer of a TOML text spoils the file. -/
theorem load_of_not_writable {ls : List Line} {l : Line} (hmem : l ∈ ls) (hl : ¬ l.Writable) :
    load (.file (textOf ls).toUTF8.toList) = .error .malformed := by
  have hparse : parse? (textOf ls) = none := by
    rw [parse?, sections_textOf, mapM_entry?_eq_none hmem hl]
    rfl
  simp only [load, ofBytes, Text.utf8_toUTF8, hparse]

/-! ## Reading the entries -/

/-- A function that reads the value off the lines of one kind, which share their key. -/
structure Reads {α : Type} (f : Line → Option α) (line : α → Line) (key : String) : Prop where
  eq_some_iff : ∀ l x, f l = some x ↔ l = line x
  key_eq : ∀ x, (line x).key = key

theorem reads_layer? : Reads Line.layer? .layer "default_layer" :=
  ⟨fun l x => by cases l <;> simp [Line.layer?], fun _ => rfl⟩

theorem reads_position? : Reads Line.position? .position "default_position" :=
  ⟨fun l x => by cases l <;> simp [Line.position?], fun _ => rfl⟩

theorem reads_demote? : Reads Line.demote? .demote "demote_on_focus" :=
  ⟨fun l x => by cases l <;> simp [Line.demote?], fun _ => rfl⟩

theorem reads_depth? : Reads Line.depth? .depth "max_event_depth" :=
  ⟨fun l x => by cases l <;> simp [Line.depth?], fun _ => rfl⟩

section
variable {α : Type} {f : Line → Option α} {line : α → Line} {key : String} {ls : List Line}

theorem Reads.key_of_eq_some (hf : Reads f line key) {l : Line} {x : α} (hx : f l = some x) :
    l.key = key := by
  rw [(hf.eq_some_iff l x).mp hx, hf.key_eq]

theorem Reads.findSome?_eq_none (hf : Reads f line key) (hkey : key ∉ ls.map Line.key) :
    ls.findSome? f = none := by
  rw [List.findSome?_eq_none_iff]
  intro l hl
  cases hx : f l with
  | none => rfl
  | some x => exact absurd (hf.key_of_eq_some hx ▸ List.mem_map_of_mem hl) hkey

/-- Where no key stands twice, the value that is found is the one of any line of its kind. -/
theorem Reads.findSome?_eq_some_iff (hf : Reads f line key) (hls : (ls.map Line.key).Nodup)
    {x : α} : ls.findSome? f = some x ↔ line x ∈ ls := by
  constructor
  · intro hfind
    obtain ⟨l, hl, hx⟩ := List.exists_of_findSome?_eq_some hfind
    exact (hf.eq_some_iff l x).mp hx ▸ hl
  · intro hl
    induction ls with
    | nil => cases hl
    | cons m ls ih =>
      rw [List.map_cons, List.nodup_cons] at hls
      rw [List.findSome?_cons]
      rcases List.mem_cons.mp hl with rfl | hl
      · rw [(hf.eq_some_iff _ x).mpr rfl]
      · cases hy : f m with
        | none => exact ih hls.2 hl
        | some y =>
          have hkey : m.key = (line x).key := (hf.key_of_eq_some hy).trans (hf.key_eq x).symm
          exact absurd (hkey ▸ List.mem_map_of_mem hl) hls.1

end

/-- The settings on some lines, which may leave out some of them. -/
def Partial.ofLines (ls : List Line) : Partial where
  layer := ls.findSome? Line.layer?
  position := ls.findSome? Line.position?
  demote := ls.findSome? Line.demote?
  depth := ls.findSome? Line.depth?

theorem layer?_string (l : Layer) : layer? (.string l.name) = some l := by
  rw [layer?, plainChoice?, Option.bind_some, Layer.ofName?_name]

theorem natural?_integer (n : UInt64) : natural? (.integer n.toNat) = some n := by
  rw [natural?, uint64?_toNat]

theorem position?_value (p : Position) : position? (Line.position p).value = some p := by
  cases p with
  | top => rfl
  | bottom => rfl
  | index n =>
    rw [Line.value, position?, natural?_integer]
    rfl

/-- One more line is one more setting. -/
theorem Partial.put_line {ls : List Line} {l : Line} (hl : l.key ∉ ls.map Line.key) :
    (Partial.ofLines ls).put l.key l.value = some (Partial.ofLines (ls ++ [l])) := by
  cases l with
  | layer l =>
    have hnone : ls.findSome? Line.layer? = none := reads_layer?.findSome?_eq_none hl
    simp [put, ofLines, Line.key, Line.value, hnone, layer?_string, Line.layer?, Line.position?,
      Line.demote?, Line.depth?]
  | position q =>
    have hnone : ls.findSome? Line.position? = none := reads_position?.findSome?_eq_none hl
    simp [put, ofLines, Line.key, hnone, position?_value, Line.layer?, Line.position?,
      Line.demote?, Line.depth?]
  | demote b =>
    have hnone : ls.findSome? Line.demote? = none := reads_demote?.findSome?_eq_none hl
    simp [put, ofLines, Line.key, Line.value, hnone, boolean?, Line.layer?, Line.position?,
      Line.demote?, Line.depth?]
  | depth n =>
    have hnone : ls.findSome? Line.depth? = none := reads_depth?.findSome?_eq_none hl
    simp [put, ofLines, Line.key, Line.value, hnone, natural?_integer, Line.layer?,
      Line.position?, Line.demote?, Line.depth?]

theorem Partial.putAll_lines {ls : List Line} (hls : (ls.map Line.key).Nodup) :
    ({} : Partial).putAll (ls.map Line.entry) = some (Partial.ofLines ls) := by
  induction ls using List.reverseRecOn with
  | nil => rfl
  | append_singleton ls l ih =>
    rw [List.map_append, List.nodup_append] at hls
    have hl : l.key ∉ ls.map Line.key := by
      intro hmem
      exact hls.2.2 _ hmem _ (List.mem_singleton.mpr rfl) rfl
    have hput := Partial.put_line hl
    have hinit := ih hls.1
    rw [Partial.putAll] at hinit ⊢
    rw [List.map_append, List.foldlM_append, hinit]
    simp only [List.map_cons, List.map_nil, List.foldlM_cons, List.foldlM_nil,
      Option.bind_eq_bind, Option.bind_some, Line.entry, hput, Option.pure_def]

theorem fitTogether_root (entries : List (String × Value)) :
    Toml.fitTogether [⟨[], false, entries⟩] = true := by
  simp [Toml.fitTogether, Toml.readTable, Toml.nextUnder, Toml.pathAt, Toml.isArrayAt]

theorem ofSections?_keep (entries : List (String × Value)) :
    ofSections? (Toml.keep ⟨[], false, entries⟩) =
      (({} : Partial).putAll entries).map Partial.complete := by
  cases entries with
  | nil =>
    have hfit : Toml.fitTogether [] = true := by
      simp [Toml.fitTogether, Toml.readTable]
    have hkeep : Toml.keep ⟨[], false, []⟩ = [] := rfl
    rw [hkeep, ofSections?, hfit]
    rfl
  | cons e es =>
    have hkeep : Toml.keep ⟨[], false, e :: es⟩ = [⟨[], false, e :: es⟩] := rfl
    rw [hkeep, ofSections?, fitTogether_root]
    rfl

/-- A file of nothing but settings, each at most once, is checked as the settings on it. -/
theorem load_of_holds {bytes : List UInt8} {ls : List Line} (hbytes : Holds bytes ls)
    (hls : (ls.map Line.key).Nodup) :
    load (.file bytes) =
      match (settingsOf ls).validate with
      | .error e => .error (.invalid e)
      | .ok () => .ok (settingsOf ls) := by
  obtain ⟨text, htext, hsections⟩ := hbytes
  have hparse : parse? text = some (settingsOf ls) := by
    rw [parse?, hsections, Option.bind_some, ofSections?_keep, Partial.putAll_lines hls]
    rfl
  cases hvalid : (settingsOf ls).validate with
  | error e => simp only [load, ofBytes, htext, hparse, hvalid]
  | ok u => simp only [load, ofBytes, htext, hparse, hvalid]

/-! ## What is refused -/

/-- The band that is refused is one that is written down: the standard one is permanent. -/
theorem temporary_settingsOf {ls : List Line} (hls : (ls.map Line.key).Nodup) {l : Layer}
    (hl : l.isTemporary = true) : (settingsOf ls).defaultLayer = l ↔ .layer l ∈ ls := by
  rw [← reads_layer?.findSome?_eq_some_iff hls, settingsOf]
  cases ls.findSome? Line.layer? with
  | none =>
    constructor
    · rintro rfl
      cases hl
    · intro heq
      cases heq
  | some m => simp

theorem permanent_settingsOf {ls : List Line} (hls : (ls.map Line.key).Nodup) :
    (settingsOf ls).defaultLayer.isTemporary = false ↔
      ∀ l, .layer l ∈ ls → l.isTemporary = false := by
  constructor
  · intro hperm l hl
    cases htemp : l.isTemporary with
    | false => rfl
    | true =>
      rw [(temporary_settingsOf hls htemp).mpr hl, htemp] at hperm
      exact hperm
  · intro hperm
    cases htemp : (settingsOf ls).defaultLayer.isTemporary with
    | false => rfl
    | true => exact htemp ▸ hperm _ ((temporary_settingsOf hls htemp).mp rfl)

theorem noEventDepth_settingsOf {ls : List Line} (hls : (ls.map Line.key).Nodup) :
    (settingsOf ls).maxEventDepth = 0 ↔ .depth 0 ∈ ls := by
  rw [← reads_depth?.findSome?_eq_some_iff hls, settingsOf]
  cases ls.findSome? Line.depth? with
  | none =>
    constructor
    · intro heq
      cases heq
    · intro heq
      cases heq
  | some n => simp

/-- What a file of nothing but settings, each at most once, is loaded as. -/
structure LoadsAs (ls : List Line) (c : Content) : Prop where
  temporary : ∀ l, load c = .error (.invalid (.temporaryDefaultLayer l)) ↔
    .layer l ∈ ls ∧ l.isTemporary = true
  noDepth : load c = .error (.invalid .noEventDepth) ↔
    (∀ l, .layer l ∈ ls → l.isTemporary = false) ∧ .depth 0 ∈ ls
  given : (∀ l, .layer l ∈ ls → l.isTemporary = false) → .depth 0 ∉ ls →
    load c = .ok (settingsOf ls)

theorem loadsAs_of_holds {bytes : List UInt8} {ls : List Line} (hls : (ls.map Line.key).Nodup)
    (hbytes : Holds bytes ls) : LoadsAs ls (.file bytes) := by
  have hload := load_of_holds hbytes hls
  have herror (e : SettingsError) :
      load (.file bytes) = .error (.invalid e) ↔ (settingsOf ls).validate = .error e := by
    rw [hload]
    cases (settingsOf ls).validate <;> simp
  refine ⟨fun l => ?temporary, ?noDepth, fun hperm hdepth => ?given⟩
  case temporary =>
    rw [herror, Settings.validate_eq_temporary]
    constructor
    · rintro ⟨heq, hl⟩
      exact ⟨(temporary_settingsOf hls hl).mp heq, hl⟩
    · rintro ⟨hmem, hl⟩
      exact ⟨(temporary_settingsOf hls hl).mpr hmem, hl⟩
  case noDepth =>
    rw [herror, Settings.validate_eq_noEventDepth, permanent_settingsOf hls,
      noEventDepth_settingsOf hls]
  case given =>
    have hvalid := Settings.validate_eq_ok.mpr
      ⟨(permanent_settingsOf hls).mpr hperm, mt (noEventDepth_settingsOf hls).mp hdepth⟩
    rw [hload, hvalid]

end SettingsFile

end ZOrder
