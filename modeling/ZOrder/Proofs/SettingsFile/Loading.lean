/-
  ZOrder.Proofs.SettingsFile.Loading

  Loading settings is safe whatever a file holds. Settings that are loaded make sense, and
  so do the standard ones that stand in for them. No file is changed, neither by loading
  nor by the command, and a file that is made holds the standard settings.
-/

import ZOrder.Check
import ZOrder.Proofs.SettingsFile.Entries

namespace ZOrder

namespace SettingsFile

/-! ## Any file -/

/-- Settings that are loaded make sense. -/
theorem validate_of_load {c : Content} {s : Settings} (hload : load c = .ok s) :
    s.validate = .ok () := by
  cases c with
  | missing =>
    cases hload
    rfl
  | directory => cases hload
  | file bytes =>
    rw [load, ofBytes] at hload
    split at hload
    · cases hload
    · split at hload
      · cases hload
      · split at hload
        · cases hload
        · next hvalid =>
          cases hload
          exact hvalid

/-- The text of a new file stands for the standard settings. -/
theorem load_standardText : load (.file standardText.toUTF8.toList) = .ok {} := by
  have hls : ((lines {}).map Line.key).Nodup := by decide
  have hwritable : ∀ l ∈ lines {}, l.Writable := by decide
  exact load_of_holds (holds_textOf hwritable) hls

/-- What stands for a place: the settings loaded from it, or else the standard ones. -/
structure StandsFor (H : Type) (place : Option Content) (s : Settings) : Prop where
  loaded : ∀ c t, place = some c → load c = .ok t → s = t
  standard : (∀ c t, place = some c → load c ≠ .ok t) → s = {}
  valid : s.validate = .ok ()
  layer : (Engine.ofSettings s : Engine H).defaultLayer = s.defaultLayer

theorem standsFor_loadOrStandard (H : Type) (place : Option Content) :
    StandsFor H place (loadOrStandard place) := by
  have hvalid : (loadOrStandard place).validate = .ok () := by
    rw [loadOrStandard.eq_def]
    split
    · rfl
    · split
      · next hload => exact validate_of_load hload
      · rfl
  refine ⟨fun c t hplace hload => ?loaded, fun hnone => ?standard, hvalid, ?layer⟩
  case loaded =>
    rw [hplace, loadOrStandard, hload]
  case standard =>
    rw [loadOrStandard.eq_def]
    split
    · rfl
    · split
      · next s hload => exact absurd hload (hnone _ s rfl)
      · rfl
  case layer =>
    rw [Engine.ofSettings, (Settings.validate_eq_ok.mp hvalid).1]
    rfl

end SettingsFile

/-! ## Trees of files -/

namespace Files

open SettingsFile

/-- Nothing that was there is changed, and a file that is new holds the standard settings. -/
structure Spares (f f' : Files) : Prop where
  kept : ∀ p, f.contentAt p ≠ .missing → f'.contentAt p = f.contentAt p
  made : ∀ p bytes, f.contentAt p = .missing → f'.contentAt p = .file bytes →
    SettingsFile.load (.file bytes) = .ok {}

theorem Spares.refl (f : Files) : Spares f f := by
  refine ⟨fun p _ => rfl, fun p bytes hmissing hfile => ?_⟩
  rw [hmissing] at hfile
  cases hfile

theorem Spares.trans {f g k : Files} (hfg : Spares f g) (hgk : Spares g k) : Spares f k := by
  refine ⟨fun p hp => ?kept, fun p bytes hp hfile => ?made⟩
  case kept =>
    have hg := hfg.kept p hp
    rw [hgk.kept p (hg ▸ hp), hg]
  case made =>
    by_cases hg : g.contentAt p = .missing
    · exact hgk.made p bytes hg hfile
    · exact hfg.made p bytes hp ((hgk.kept p hg).symm.trans hfile)

theorem lookup_filter_ne {files : List (List String × List UInt8)} {p place : List String}
    (hne : p ≠ place) : (files.filter fun e => e.1 ≠ place).lookup p = files.lookup p := by
  induction files with
  | nil => rfl
  | cons e files ih =>
    obtain ⟨q, bytes⟩ := e
    rw [List.filter_cons]
    by_cases hq : q = place
    · subst hq
      have hpq : (p == q) = false := by simpa using hne
      simp only [ne_eq, not_true_eq_false, decide_false, Bool.false_eq_true, if_false]
      rw [List.lookup_cons, hpq, ih]
    · simp only [ne_eq, hq, not_false_eq_true, decide_true, if_true]
      rw [List.lookup_cons, List.lookup_cons, ih]

/-- A file that is put is seen at its place and nowhere else. -/
theorem contentAt_put_file (f : Files) {place : List String} (hplace : f.contentAt place = .missing)
    (bytes : List UInt8) (p : List String) :
    (f.put place (.file bytes)).contentAt p =
      if p = place then .file bytes else f.contentAt p := by
  by_cases hp : p = place
  · subst hp
    have hdir : (p.isEmpty || f.directories.contains p) = false := by
      rw [contentAt] at hplace
      split at hplace
      · cases hplace
      · next hdir => exact Bool.eq_false_iff.mpr hdir
    rw [if_pos rfl, contentAt, put]
    simp only [hdir, List.lookup_cons, beq_self_eq_true, Bool.false_eq_true, if_false]
  · rw [if_neg hp, contentAt, contentAt, put]
    have hpb : (p == place) = false := by simpa using hp
    simp only [List.lookup_cons, hpb, lookup_filter_ne hp]

theorem spares_loadAt (f : Files) (place : List String) : Spares f (f.loadAt place).2 := by
  rw [loadAt]
  dsimp only
  split
  · next hmissing =>
    have hcontent := f.contentAt_put_file hmissing standardText.toUTF8.toList
    rw [hmissing, after]
    refine ⟨fun p hp => ?kept, fun p bytes hp hfile => ?made⟩
    case kept =>
      have hne : p ≠ place := by
        rintro rfl
        exact hp hmissing
      rw [hcontent, if_neg hne]
    case made =>
      rw [hcontent] at hfile
      split at hfile
      · rw [← hfile]
        exact load_standardText
      · rw [hp] at hfile
        cases hfile
  · exact .refl f

/-- Only directories are made on the way. -/
theorem spares_makeWay (f : Files) (place : List String) : Spares f (f.makeWay place) := by
  have hcontent (p : List String) : (f.makeWay place).contentAt p = f.contentAt p ∨
      f.contentAt p = .missing ∧ (f.makeWay place).contentAt p = .directory := by
    by_cases hnew : p ∈ (((List.range place.length).map fun n => place.take n).filter
        fun p => f.contentAt p = .missing)
    · have hmissing : f.contentAt p = .missing := of_decide_eq_true (List.mem_filter.mp hnew).2
      refine .inr ⟨hmissing, ?_⟩
      rw [contentAt, makeWay, List.contains_append, List.contains_iff_mem.mpr hnew]
      simp only [Bool.true_or, Bool.or_true, if_true]
    · refine .inl ?_
      rw [← List.contains_iff_mem, Bool.not_eq_true] at hnew
      rw [contentAt, contentAt, makeWay, List.contains_append, hnew, Bool.false_or]
  refine ⟨fun p hp => ?kept, fun p bytes hp hfile => ?made⟩
  case kept =>
    rcases hcontent p with heq | ⟨hmissing, -⟩
    · exact heq
    · exact absurd hmissing hp
  case made =>
    rcases hcontent p with heq | ⟨-, hdir⟩
    · rw [heq, hp] at hfile
      cases hfile
    · rw [hdir] at hfile
      cases hfile

theorem spares_load (f : Files) (path : String) : Spares f (f.load path).2 := by
  rw [load]
  split
  · exact .refl f
  · exact f.spares_loadAt _

theorem validate_of_load {f : Files} {path : String} {s : Settings}
    (hload : (f.load path).1 = .ok s) : s.validate = .ok () := by
  rw [load] at hload
  split at hload
  · cases hload
  · exact SettingsFile.validate_of_load hload

end Files

/-- The command leaves all files as they are, but for a missing one that it makes. -/
theorem Check.spares_run (args : List String) (f : Files) (home : List String) (shown : String) :
    Files.Spares f (Check.run args f home shown).files := by
  rw [Check.run]
  split
  · exact .refl f
  · exact .refl f
  · exact .refl f
  · next path _ =>
    cases path with
    | none => exact (f.spares_makeWay _).trans (Files.spares_loadAt _ _)
    | some path => exact f.spares_load path

namespace SettingsFile

/-! ## The main result -/

/-- Loading settings is safe. What is loaded makes sense, from a file or from a path, and so
do the settings that stand for a file that can not be loaded, whose band new engines keep. No
file is changed, and a file that is made holds the standard settings. A file of nothing but
settings, each at most once and in any order, is refused for a temporary band, or else for no
rounds of events, and otherwise stands for the values on its lines. The text of such lines is
such a file, as long as its numbers are those of the TOML grammar, which have 64 bits with
the sign. -/
theorem loading_is_safe {H : Type} :
    (∀ c s, load c = .ok s → s.validate = .ok ()) ∧
    (∀ (f : Files) path s, (f.load path).1 = .ok s → s.validate = .ok ()) ∧
    (∀ place, StandsFor H place (loadOrStandard place)) ∧
    (∀ c, after c = c ∨ c = .missing ∧ load (after c) = .ok {}) ∧
    (∀ (f : Files) path, f.Spares (f.load path).2) ∧
    (∀ (f : Files) place, f.Spares ((f.makeWay place).loadAt place).2) ∧
    (∀ ls bytes, (ls.map Line.key).Nodup → Holds bytes ls → LoadsAs ls (.file bytes)) ∧
    (∀ ls, (∀ l ∈ ls, l.Writable) → Holds (textOf ls).toUTF8.toList ls) ∧
    (∀ ls, (∃ l ∈ ls, ¬ l.Writable) →
      load (.file (textOf ls).toUTF8.toList) = .error .malformed) := by
  refine ⟨fun _ _ => validate_of_load, fun _ _ _ => Files.validate_of_load,
    standsFor_loadOrStandard H, fun c => ?after, Files.spares_load,
    fun f place => (f.spares_makeWay place).trans (Files.spares_loadAt _ place),
    fun _ _ => loadsAs_of_holds, fun _ => holds_textOf, fun ls hls => ?beyond⟩
  case after =>
    cases c with
    | missing => exact .inr ⟨rfl, load_standardText⟩
    | directory => exact .inl rfl
    | file bytes => exact .inl rfl
  case beyond =>
    obtain ⟨l, hmem, hl⟩ := hls
    exact load_of_not_writable hmem hl

/-- Three settings out of order are loaded, and a temporary band is told before the lack of
rounds of events. -/
theorem loading_is_safe_of_lines :
    load (.file (textOf [.depth 2, .position (.index 3), .layer .keepAbove]).toUTF8.toList) =
      .ok ⟨.keepAbove, .index 3, true, 2⟩ ∧
    load (.file (textOf [.depth 0, .layer .fullscreen]).toUTF8.toList) =
      .error (.invalid (.temporaryDefaultLayer .fullscreen)) := by
  obtain ⟨-, -, -, -, -, -, hloads, hholds, -⟩ := loading_is_safe (H := Int32)
  constructor
  · have hfile := hloads [.depth 2, .position (.index 3), .layer .keepAbove] _ (by decide)
      (hholds _ (by decide))
    exact hfile.given (by simp [Layer.isTemporary]) (by decide)
  · have hfile := hloads [.depth 0, .layer .fullscreen] _ (by decide) (hholds _ (by decide))
    exact (hfile.temporary .fullscreen).mpr ⟨by decide, rfl⟩

end SettingsFile

end ZOrder
