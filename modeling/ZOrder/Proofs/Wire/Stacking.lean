/-
  ZOrder.Proofs.Wire.Stacking

  The spellings of handles, bands, places, anchors, requests, events and settings, each put
  together from the rules of its pieces, and the faithfulness of their wire forms. For each
  type the reader is shown to follow the rules, and the form that is written to be one of the
  spellings; the rest is `Faithful.of_spells`.
-/

import ZOrder.Proofs.Wire.Spelling
import ZOrder.Wire.Stacking

namespace ZOrder

open Json (Reads NamesChoice SpellsList SpellsField SpellsFieldOr)

variable {j : Json}

/-! ## Numbers in range -/

theorem int32?_eq_some_iff {n : Int} {w : Int32} : int32? n = some w ↔ n = w.toInt :=
  ⟨fun h => (toInt_of_int32? h).symm, fun h => h ▸ int32?_toInt w⟩

theorem uint64?_eq_some_iff {n : Int} {w : UInt64} : uint64? n = some w ↔ n = w.toNat :=
  ⟨fun h => (toNat_of_uint64? h).symm, fun h => h ▸ uint64?_toNat w⟩

/-- A count is spelled as its integer. -/
def SpellsCount (j : Json) (n : UInt64) : Prop := j = .int n.toNat

theorem reads_count : Reads (fun j => j.int?.bind uint64?) SpellsCount :=
  Json.reads_int fun _ _ => uint64?_eq_some_iff

/-! ## Handles -/

namespace WindowHandle

variable {H : Type} [WindowHandle H]

/-- A handle is spelled as its integer. -/
def Spells (j : Json) (w : H) : Prop := j = .int (WindowHandle.toInt w)

theorem reads : Reads WindowHandle.ofJson? (WindowHandle.Spells (H := H)) :=
  Json.reads_int fun n w =>
    ⟨fun h => (WindowHandle.toInt_of_ofInt? n w h).symm, fun h => h ▸ WindowHandle.ofInt?_toInt w⟩

theorem spells_toJson (w : H) : WindowHandle.Spells (WindowHandle.toJson w) w := rfl

theorem not_spells_null (w : H) : ¬ WindowHandle.Spells .null w := nofun

end WindowHandle

/-! ## Bands and places -/

/-- A band is a choice with nothing to go with it. -/
def Layer.Spells (j : Json) (l : Layer) : Prop := NamesChoice l.name j

theorem Layer.ofName?_eq_some_iff {name : String} {l : Layer} :
    Layer.ofName? name = some l ↔ name = l.name := by
  constructor
  · intro h
    have hname := List.find?_some h
    exact (beq_iff_eq.mp hname).symm
  · rintro rfl
    exact Layer.ofName?_name l

theorem Layer.reads : Reads Layer.ofJson? Layer.Spells := fun j l => by
  simp only [Layer.ofJson?, Layer.Spells, Option.bind_eq_some_iff, Layer.ofName?_eq_some_iff,
    Json.plainChoice?_eq_some_iff, exists_eq_right]

theorem Layer.spells_toJson (l : Layer) : Layer.Spells l.toJson l := .bare

/-- A place is a choice; a number of siblings goes with the last one. -/
inductive Position.Spells : Json → Position → Prop where
  | top {j : Json} (name : NamesChoice "top" j) : Spells j .top
  | bottom {j : Json} (name : NamesChoice "bottom" j) : Spells j .bottom
  | index {j : Json} {n : UInt64} (count : SpellsCount j n) : Spells (.tagged "index" j) (.index n)

theorem Position.reads : Reads Position.ofJson? Position.Spells := by
  intro j p
  constructor
  · intro h
    unfold Position.ofJson? at h
    split at h
    · next v hchoice =>
      obtain ⟨n, rfl, hn, rfl⟩ := reads_count.of_choice?_eq_some hchoice h
      exact .index hn
    · split at h
      · next hname =>
        obtain rfl := Option.some.inj h
        exact .top (Json.plainChoice?_eq_some_iff.mp hname)
      · next hname =>
        obtain rfl := Option.some.inj h
        exact .bottom (Json.plainChoice?_eq_some_iff.mp hname)
      · cases h
  · rintro (⟨_ | _⟩ | ⟨_ | _⟩ | hcount)
    · rfl
    · rfl
    · rfl
    · rfl
    · exact reads_count.map_eq_some_iff.mpr ⟨_, hcount, rfl⟩

theorem Position.spells_toJson (p : Position) : Position.Spells p.toJson p := by
  cases p with
  | top => exact .top .bare
  | bottom => exact .bottom .bare
  | index n => exact .index rfl

/-! ## Requests and events -/

section Handles

variable {H : Type} [WindowHandle H]

/-- An anchor is a choice; a neighbour goes with the first two. -/
inductive Anchor.Spells : Json → Anchor H → Prop where
  | above {j : Json} {w : H} (handle : WindowHandle.Spells j w) :
      Spells (.tagged "Above" j) (.above w)
  | below {j : Json} {w : H} (handle : WindowHandle.Spells j w) :
      Spells (.tagged "Below" j) (.below w)
  | floor {j : Json} (name : NamesChoice "None" j) : Spells j .floor

theorem Anchor.reads : Reads Anchor.ofJson? (Anchor.Spells (H := H)) := by
  intro j a
  constructor
  · intro h
    unfold Anchor.ofJson? at h
    split at h
    · next v hchoice =>
      obtain ⟨w, rfl, hw, rfl⟩ := WindowHandle.reads.of_choice?_eq_some hchoice h
      exact .above hw
    · next v hchoice =>
      obtain ⟨w, rfl, hw, rfl⟩ := WindowHandle.reads.of_choice?_eq_some hchoice h
      exact .below hw
    · split at h
      · next hname =>
        obtain rfl := Option.some.inj h
        exact .floor (Json.plainChoice?_eq_some_iff.mp hname)
      · cases h
  · rintro (hw | hw | ⟨_ | _⟩)
    · exact WindowHandle.reads.map_eq_some_iff.mpr ⟨_, hw, rfl⟩
    · exact WindowHandle.reads.map_eq_some_iff.mpr ⟨_, hw, rfl⟩
    · rfl
    · rfl

theorem Anchor.spells_toJson (a : Anchor H) : Anchor.Spells a.toJson a := by
  cases a with
  | above w => exact .above (WindowHandle.spells_toJson w)
  | below w => exact .below (WindowHandle.spells_toJson w)
  | floor => exact .floor .bare

/-- An event is a choice, and a window goes with each. -/
inductive Event.Spells : Json → Event H → Prop where
  | focusChanged {j : Json} {w : H} (handle : WindowHandle.Spells j w) :
      Spells (.tagged "FocusChanged" j) (.focusChanged w)
  | windowDestroyed {j : Json} {w : H} (handle : WindowHandle.Spells j w) :
      Spells (.tagged "WindowDestroyed" j) (.windowDestroyed w)

theorem Event.reads : Reads Event.ofJson? (Event.Spells (H := H)) := by
  intro j e
  constructor
  · intro h
    unfold Event.ofJson? at h
    split at h
    · next v hchoice =>
      obtain ⟨w, rfl, hw, rfl⟩ := WindowHandle.reads.of_choice?_eq_some hchoice h
      exact .focusChanged hw
    · next v hchoice =>
      obtain ⟨w, rfl, hw, rfl⟩ := WindowHandle.reads.of_choice?_eq_some hchoice h
      exact .windowDestroyed hw
    · cases h
  · rintro (hw | hw)
    · exact WindowHandle.reads.map_eq_some_iff.mpr ⟨_, hw, rfl⟩
    · exact WindowHandle.reads.map_eq_some_iff.mpr ⟨_, hw, rfl⟩

theorem Event.spells_toJson (e : Event H) : Event.Spells e.toJson e := by
  cases e with
  | focusChanged w => exact .focusChanged (WindowHandle.spells_toJson w)
  | windowDestroyed w => exact .windowDestroyed (WindowHandle.spells_toJson w)

/-- A request is a record of its windows and its anchor. -/
structure Request.Spells (j : Json) (r : Request H) : Prop where
  record : j.IsRecord 2
  windows : SpellsField (SpellsList WindowHandle.Spells) (j.field? 0 "windows") r.windows
  anchor : SpellsField Anchor.Spells (j.field? 1 "anchor") r.anchor

theorem Request.reads : Reads Request.ofJson? (Request.Spells (H := H)) := by
  have hlist := WindowHandle.reads (H := H) |>.listOf
  intro j r
  constructor
  · intro h
    unfold Request.ofJson? at h
    split at h
    · next windows anchor hfields =>
      obtain ⟨hrecord, hfields⟩ := Json.fields?_eq_some_iff.mp hfields
      simp only [List.mapIdx_cons, List.mapIdx_nil, List.cons.injEq] at hfields
      obtain ⟨ws, hws, h⟩ := Option.bind_eq_some_iff.mp h
      obtain ⟨a, ha, h⟩ := Option.bind_eq_some_iff.mp h
      obtain rfl := Option.some.inj h
      exact ⟨hrecord, ⟨windows, hfields.1.symm, (hlist windows ws).mp hws⟩,
        ⟨anchor, hfields.2.1.symm, (Anchor.reads anchor a).mp ha⟩⟩
    · cases h
  · rintro ⟨hrecord, ⟨windows, hw, hws⟩, ⟨anchor, ha, has⟩⟩
    have hfields : j.fields? ["windows", "anchor"] = some [some windows, some anchor] :=
      Json.fields?_eq_some_iff.mpr ⟨hrecord, by simp [hw, ha]⟩
    simp only [Request.ofJson?, hfields, (hlist windows r.windows).mpr hws,
      (Anchor.reads anchor r.anchor).mpr has]
    rfl

theorem Request.spells_toJson (r : Request H) : Request.Spells r.toJson r where
  record := trivial
  windows := ⟨_, rfl, Json.spellsList_ofList WindowHandle.spells_toJson r.windows⟩
  anchor := ⟨_, rfl, Anchor.spells_toJson r.anchor⟩

end Handles

/-! ## Settings -/

/-- Settings are a record of four fields, each with its default. -/
structure Settings.Spells (j : Json) (s : Settings) : Prop where
  record : j.IsRecord 4
  defaultLayer : SpellsFieldOr .layout Layer.Spells (j.field? 0 "default_layer") s.defaultLayer
  defaultPosition :
    SpellsFieldOr .top Position.Spells (j.field? 1 "default_position") s.defaultPosition
  demoteOnFocus :
    SpellsFieldOr true (fun v b => v = .bool b) (j.field? 2 "demote_on_focus") s.demoteOnFocus
  maxEventDepth : SpellsFieldOr 8 SpellsCount (j.field? 3 "max_event_depth") s.maxEventDepth

theorem reads_orDefault {α : Type} {value? : Json → Option α} {spells : Json → α → Prop}
    (h : Reads value? spells) (default : α) (field : Option Json) (a : α) :
    Settings.orDefault value? default field = some a ↔ SpellsFieldOr default spells field a := by
  cases field with
  | none => simp [Settings.orDefault, SpellsFieldOr, SpellsField, eq_comm]
  | some v => simp [Settings.orDefault, SpellsFieldOr, SpellsField, h v a]

theorem Settings.reads : Reads Settings.ofJson? Settings.Spells := by
  intro j s
  constructor
  · intro h
    unfold Settings.ofJson? at h
    split at h
    · next layer position demote depth hfields =>
      obtain ⟨hrecord, hfields⟩ := Json.fields?_eq_some_iff.mp hfields
      simp only [fieldNames, List.mapIdx_cons, List.mapIdx_nil, List.cons.injEq] at hfields
      obtain ⟨rfl, rfl, rfl, rfl, -⟩ := hfields
      obtain ⟨l, hl, h⟩ := Option.bind_eq_some_iff.mp h
      obtain ⟨p, hp, h⟩ := Option.bind_eq_some_iff.mp h
      obtain ⟨b, hb, h⟩ := Option.bind_eq_some_iff.mp h
      obtain ⟨n, hn, h⟩ := Option.bind_eq_some_iff.mp h
      obtain rfl := Option.some.inj h
      exact ⟨hrecord, (reads_orDefault Layer.reads _ _ l).mp hl,
        (reads_orDefault Position.reads _ _ p).mp hp, (reads_orDefault Json.reads_bool _ _ b).mp hb,
        (reads_orDefault reads_count _ _ n).mp hn⟩
    · cases h
  · rintro ⟨hrecord, hl, hp, hb, hn⟩
    have hfields : j.fields? fieldNames = some [j.field? 0 "default_layer",
        j.field? 1 "default_position", j.field? 2 "demote_on_focus", j.field? 3 "max_event_depth"] :=
      Json.fields?_eq_some_iff.mpr ⟨hrecord, rfl⟩
    rw [← reads_orDefault Layer.reads] at hl
    rw [← reads_orDefault Position.reads] at hp
    rw [← reads_orDefault Json.reads_bool] at hb
    rw [← reads_orDefault reads_count] at hn
    simp only [Settings.ofJson?, hfields, hl, hp, hb, hn]
    rfl

theorem Settings.spells_toJson (s : Settings) : Settings.Spells s.toJson s where
  record := trivial
  defaultLayer := .inr ⟨_, rfl, Layer.spells_toJson s.defaultLayer⟩
  defaultPosition := .inr ⟨_, rfl, Position.spells_toJson s.defaultPosition⟩
  demoteOnFocus := .inr ⟨_, rfl, rfl⟩
  maxEventDepth := .inr ⟨_, rfl, rfl⟩

end ZOrder
