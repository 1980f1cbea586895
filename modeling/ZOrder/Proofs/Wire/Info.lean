/-
  ZOrder.Proofs.Wire.Info

  The spellings of a tree of entries, at any depth. An entry nests the spellings of the entries
  below it, so the reader is shown to follow the rules by induction on the tree: one entry is
  read by its fields, and the entries below by the hypothesis.

  The main result puts all wire forms together, over both types of handles.
-/

import ZOrder.Proofs.Wire.Stacking
import ZOrder.Wire.Info

namespace ZOrder

open Json (Reads NamesChoice SpellsOption SpellsField SpellsFieldOr Faithful)

/-! ## Kinds and coordinates -/

/-- A kind of entry is a choice with nothing to go with it. -/
def InfoKind.Spells (j : Json) (k : InfoKind) : Prop := NamesChoice k.name j

theorem InfoKind.reads : Reads InfoKind.ofJson? InfoKind.Spells := by
  intro j k
  have hname : ∀ name, [root, layer, window].find? (fun k => k.name == name) = some k ↔
      name = k.name := by
    intro name
    constructor
    · intro h
      have hfound := List.find?_some h
      exact (beq_iff_eq.mp hfound).symm
    · rintro rfl
      cases k <;> decide
  simp only [InfoKind.ofJson?, InfoKind.Spells, Option.bind_eq_some_iff, hname,
    Json.plainChoice?_eq_some_iff, exists_eq_right]

theorem InfoKind.spells_toJson (k : InfoKind) : InfoKind.Spells k.toJson k := .bare

namespace Info

variable {H : Type} [WindowHandle H] {j : Json} {i : Info H}

/-- A coordinate is spelled as its integer. -/
def SpellsCoordinate (j : Json) (n : Int32) : Prop := j = .int n.toInt

theorem reads_coordinate : Reads coordinateOfJson? SpellsCoordinate :=
  Json.reads_int fun _ _ => int32?_eq_some_iff

theorem not_spellsCoordinate_null (n : Int32) : ¬ SpellsCoordinate .null n := nofun

/-! ## Spellings -/

/-- What a record holds for an entry, but for the entries below it. Coordinates and the window
may be missing, or left out. -/
structure SpellsFields (j : Json) (i : Info H) : Prop where
  record : j.IsRecord 6
  name : SpellsField (fun v s => v = .str s) (j.field? 0 "name") i.name
  x : SpellsFieldOr none (SpellsOption SpellsCoordinate) (j.field? 1 "x") i.x
  y : SpellsFieldOr none (SpellsOption SpellsCoordinate) (j.field? 2 "y") i.y
  kind : SpellsField InfoKind.Spells (j.field? 3 "type") i.kind
  window : SpellsFieldOr none (SpellsOption WindowHandle.Spells) (j.field? 4 "wid") i.window

/-- An entry is a record of six fields; the last one holds an array with a spelling of each
entry below. -/
inductive Spells : Json → Info H → Prop where
  | entry {j : Json} {i : Info H} {items : List Json} (fields : SpellsFields j i)
      (children : j.field? 5 "children" = some (.arr items))
      (each : List.Forall₂ Spells items i.children) : Spells j i

omit [WindowHandle H] in
/-- Induction from the entries below an entry to the entry. -/
theorem children_induction {P : Info H → Prop} (step : ∀ i, (∀ c ∈ i.children, P c) → P i)
    (i : Info H) : P i :=
  step i fun c hc =>
    have : sizeOf c < sizeOf i := by
      have hlt := List.sizeOf_lt_of_mem hc
      cases i
      simp only [mk.sizeOf_spec] at hlt ⊢
      omega
    children_induction step c
termination_by sizeOf i

/-! ## Reading one entry -/

theorem eachOfJson?_eq_mapM (items : List Json) :
    eachOfJson? (H := H) items = items.mapM ofJson? := by
  induction items with
  | nil => rw [eachOfJson?, List.mapM_nil]; rfl
  | cons j items ih => rw [eachOfJson?, List.mapM_cons, ih]

theorem allOfJson?_eq_some_iff {is : List (Info H)} :
    allOfJson? j = some is ↔ ∃ items, j = .arr items ∧
      List.Forall₂ (fun j i => ofJson? j = some i) items is := by
  cases j <;> simp [allOfJson?, eachOfJson?_eq_mapM, Json.mapM_eq_some_iff]

theorem childrenOf?_eq_bind (members : List (String × Json)) :
    childrenOf? (H := H) members = (members.lookup "children").bind allOfJson? := by
  induction members with
  | nil => rfl
  | cons m members ih =>
    obtain ⟨name, v⟩ := m
    rw [childrenOf?, List.lookup_cons]
    by_cases hname : name = "children"
    · simp [hname]
    · rw [if_neg hname, beq_false_of_ne (Ne.symm hname)]
      exact ih

theorem ofFields?_eq_some_iff {name x y kind window : Json} {is : List (Info H)} :
    ofFields? name x y kind window is = some i ↔
      name = .str i.name ∧ SpellsOption SpellsCoordinate x i.x ∧
        SpellsOption SpellsCoordinate y i.y ∧ InfoKind.Spells kind i.kind ∧
          SpellsOption WindowHandle.Spells window i.window ∧ is = i.children := by
  have hcoordinate := reads_coordinate.optionOf not_spellsCoordinate_null
  have hwindow := (WindowHandle.reads (H := H)).optionOf WindowHandle.not_spells_null
  simp only [ofFields?, bind, pure, Option.bind_eq_some_iff, Option.some.injEq,
    Json.reads_str name, hcoordinate x, hcoordinate y, InfoKind.reads kind, hwindow window]
  constructor
  · rintro ⟨name, hname, x, hx, y, hy, kind, hkind, window, hw, rfl⟩
    exact ⟨hname, hx, hy, hkind, hw, rfl⟩
  · rintro ⟨hname, hx, hy, hkind, hw, rfl⟩
    cases i
    exact ⟨_, hname, _, hx, _, hy, _, hkind, _, hw, rfl⟩

/-- A record is read field by field. An array that is too short ends before the entries below. -/
theorem ofJson?_of_isRecord (h : j.IsRecord 6) :
    ofJson? (H := H) j = (j.field? 0 "name").bind fun name => (j.field? 3 "type").bind fun kind =>
      (j.field? 5 "children").bind fun children => (allOfJson? children).bind
        (ofFields? name ((j.field? 1 "x").getD .null) ((j.field? 2 "y").getD .null) kind
          ((j.field? 4 "wid").getD .null)) := by
  cases j with
  | arr items =>
    -- Up to five items are too few on both sides; six are the fields, and no more fit.
    rcases items with _ | ⟨name, _ | ⟨x, _ | ⟨y, _ | ⟨kind, _ | ⟨window, _ | ⟨children, items⟩⟩⟩⟩⟩⟩
    iterate 6 simp [ofJson?, Json.field?]
    have hlen : items.length + 6 ≤ 6 := h
    obtain rfl : items = [] := List.length_eq_zero_iff.mp (by omega)
    simp [ofJson?, Json.field?]
  | obj members => simp [ofJson?, Json.field?, childrenOf?_eq_bind, Option.bind_assoc]
  | _ => exact h.elim

theorem isRecord_of_ofJson?_eq_some (h : ofJson? j = some i) : j.IsRecord 6 := by
  rw [ofJson?.eq_def] at h
  split at h
  · exact Nat.le_refl 6
  · trivial
  · cases h

/-- One entry is read by its fields; the entries below it are read one by one. -/
theorem ofJson?_eq_some_iff : ofJson? j = some i ↔ SpellsFields j i ∧
    ∃ items, j.field? 5 "children" = some (.arr items) ∧
      List.Forall₂ (fun j i => ofJson? j = some i) items i.children := by
  by_cases hrecord : j.IsRecord 6
  · simp only [ofJson?_of_isRecord hrecord, Option.bind_eq_some_iff, ofFields?_eq_some_iff,
      allOfJson?_eq_some_iff, Json.spellsOption_getD not_spellsCoordinate_null,
      Json.spellsOption_getD (WindowHandle.not_spells_null (H := H))]
    constructor
    · rintro ⟨_, hname, _, hkind, _, hchildren, _, ⟨items, rfl, heach⟩, hn, hx, hy, hk, hw, rfl⟩
      exact ⟨⟨hrecord, ⟨_, hname, hn⟩, hx, hy, ⟨_, hkind, hk⟩, hw⟩, items, hchildren, heach⟩
    · rintro ⟨⟨-, ⟨_, hname, hn⟩, hx, hy, ⟨_, hkind, hk⟩, hw⟩, items, hchildren, heach⟩
      exact ⟨_, hname, _, hkind, _, hchildren, _, ⟨items, rfl, heach⟩, hn, hx, hy, hk, hw, rfl⟩
  · exact ⟨fun h => absurd (isRecord_of_ofJson?_eq_some h) hrecord,
      fun h => absurd h.1.record hrecord⟩

/-! ## Trees of entries -/

theorem reads : Reads ofJson? (Spells (H := H)) := by
  intro j i
  induction i using children_induction generalizing j with
  | step i ih =>
    -- Below the entry, what is read is what is spelled.
    have hbelow : ∀ items, List.Forall₂ (fun j i => ofJson? j = some i) items i.children ↔
        List.Forall₂ Spells items i.children := fun items => by
      simp only [List.forall₂_iff_zip]
      exact and_congr_right fun _ => forall₃_congr fun j c hmem => ih c (List.of_mem_zip hmem).2 j
    rw [ofJson?_eq_some_iff]
    simp only [hbelow]
    constructor
    · rintro ⟨hfields, items, hchildren, heach⟩
      exact .entry hfields hchildren heach
    · rintro ⟨hfields, hchildren, heach⟩
      exact ⟨hfields, _, hchildren, heach⟩

theorem allToJson_eq_map (is : List (Info H)) : allToJson is = is.map toJson := by
  induction is with
  | nil => rw [allToJson, List.map_nil]
  | cons i is ih => rw [allToJson, ih, List.map_cons]

theorem spells_toJson (i : Info H) : Spells i.toJson i := by
  induction i using children_induction with
  | step i ih =>
    obtain ⟨name, x, y, kind, window, children⟩ := i
    have heach : List.Forall₂ Spells (children.map toJson) children :=
      List.forall₂_map_left_iff.mpr (List.forall₂_same.mpr ih)
    have hcoordinate : ∀ o, SpellsOption SpellsCoordinate (.ofOption coordinateToJson o) o :=
      Json.spellsOption_ofOption fun n => rfl
    have hwindow := Json.spellsOption_ofOption (WindowHandle.spells_toJson (H := H))
    rw [toJson, allToJson_eq_map]
    exact .entry ⟨trivial, ⟨_, rfl, rfl⟩, .inr ⟨_, rfl, hcoordinate x⟩,
      .inr ⟨_, rfl, hcoordinate y⟩, ⟨_, rfl, InfoKind.spells_toJson kind⟩,
      .inr ⟨_, rfl, hwindow window⟩⟩ rfl heach

end Info

/-! ## All forms -/

/-- The wire forms that carry handles are faithful, for one type of handles. -/
structure HandleForms (H : Type) [WindowHandle H] : Prop where
  handle : Faithful (WindowHandle.Spells (H := H)) WindowHandle.toJson WindowHandle.ofJson?
  anchor : Faithful (Anchor.Spells (H := H)) Anchor.toJson Anchor.ofJson?
  request : Faithful (Request.Spells (H := H)) Request.toJson Request.ofJson?
  event : Faithful (Event.Spells (H := H)) Event.toJson Event.ofJson?
  info : Faithful (Info.Spells (H := H)) Info.toJson Info.ofJson?

theorem HandleForms.of_windowHandle (H : Type) [WindowHandle H] : HandleForms H where
  handle := .of_spells WindowHandle.reads WindowHandle.spells_toJson
  anchor := .of_spells Anchor.reads Anchor.spells_toJson
  request := .of_spells Request.reads Request.spells_toJson
  event := .of_spells Event.reads Event.spells_toJson
  info := .of_spells Info.reads Info.spells_toJson

/-- The wire forms that carry no handles are faithful. -/
structure PlainForms : Prop where
  layer : Faithful Layer.Spells Layer.toJson Layer.ofJson?
  position : Faithful Position.Spells Position.toJson Position.ofJson?
  settings : Faithful Settings.Spells Settings.toJson Settings.ofJson?
  infoKind : Faithful InfoKind.Spells InfoKind.toJson InfoKind.ofJson?

/-- Every wire form is read by its rules, read back as it was written, and brought to one form
when it is read and written again: without handles, and for the handles of either server. -/
theorem wireForms_faithful : PlainForms ∧ HandleForms Int32 ∧ HandleForms UInt32 :=
  ⟨⟨.of_spells Layer.reads Layer.spells_toJson, .of_spells Position.reads Position.spells_toJson,
    .of_spells Settings.reads Settings.spells_toJson,
    .of_spells InfoKind.reads InfoKind.spells_toJson⟩,
    .of_windowHandle Int32, .of_windowHandle UInt32⟩

-- The members in another order, one that nobody asks for, and `null` with a choice.
example :
    Json.canonical? Request.toJson (Request.ofJson? (H := Int32))
      (.obj [("anchor", .tagged "None" .null), ("screen", .int 0), ("windows", .arr [.int (-3)])]) =
    some (.obj [("windows", .arr [.int (-3)]), ("anchor", .str "None")]) := rfl

end ZOrder
