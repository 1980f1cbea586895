/-
  ZOrder.Proofs.Wire.Spelling

  How a value may be spelled in JSON. A reader takes more than the one form that is written:
  a choice may carry `null`, a record may be an array, members that nobody asks for are passed
  over, and some fields may be left out. The rules are stated here as relations between JSON
  and values, without a reader; the readers of the pieces are shown to follow them.

  A wire form is `Faithful` to such a relation if the reader accepts the spellings of a value
  and nothing else, and the writer picks one of them.
-/

import Mathlib.Data.List.Forall2
import ZOrder.Wire.Basic

namespace ZOrder

namespace Json

variable {α : Type} {spells : Json → α → Prop} {name : String} {j : Json} {a : α}

/-! ## Faithful forms -/

/-- A reader follows the rules: it accepts the spellings of each value, and nothing else. -/
def Reads (ofJson? : Json → Option α) (spells : Json → α → Prop) : Prop :=
  ∀ j a, ofJson? j = some a ↔ spells j a

/-- The canonical form of what a reader accepts: what is read is written again. -/
def canonical? (toJson : α → Json) (ofJson? : Json → Option α) (j : Json) : Option Json :=
  (ofJson? j).map toJson

/-- What is read goes into a larger value. -/
theorem Reads.map_eq_some_iff {β : Type} {ofJson? : Json → Option α} (h : Reads ofJson? spells)
    {f : α → β} {b : β} : (ofJson? j).map f = some b ↔ ∃ a, spells j a ∧ f a = b := by
  simp only [Option.map_eq_some_iff, h j]

/-- A wire form whose reader and writer agree on what is spelled how. -/
structure Faithful (spells : Json → α → Prop) (toJson : α → Json) (ofJson? : Json → Option α) :
    Prop where
  /-- The reader accepts the spellings of a value, and nothing else. -/
  reads : Reads ofJson? spells
  /-- What was written is read back. -/
  read_write : ∀ a, ofJson? (toJson a) = some a
  /-- The canonical form of what is accepted is read as the same value, and is its own canonical
  form. -/
  canonical : ∀ j c, canonical? toJson ofJson? j = some c →
    ofJson? c = ofJson? j ∧ canonical? toJson ofJson? c = some c
  /-- No two values are written alike. -/
  injective : Function.Injective toJson

/-- A reader that follows the rules is faithful with a writer that picks some spelling. -/
theorem Faithful.of_spells {toJson : α → Json} {ofJson? : Json → Option α}
    (hread : Reads ofJson? spells) (hwrite : ∀ a, spells (toJson a) a) :
    Faithful spells toJson ofJson? := by
  have hback : ∀ a, ofJson? (toJson a) = some a := fun a => (hread _ a).mpr (hwrite a)
  refine ⟨hread, hback, fun j c hc => ?_, fun a b hab => ?_⟩
  · obtain ⟨a, ha, rfl⟩ := Option.map_eq_some_iff.mp hc
    exact ⟨(hback a).trans ha.symm, by rw [canonical?, hback, Option.map_some]⟩
  · have hb := hback b
    rw [← hab, hback] at hb
    exact Option.some.inj hb

/-! ## Choices -/

/-- A choice that nothing goes with is its name, bare or with `null`. -/
inductive NamesChoice (name : String) : Json → Prop where
  | bare : NamesChoice name (.str name)
  | withNull : NamesChoice name (.tagged name .null)

theorem choice?_eq_some_iff {v : Json} :
    j.choice? = some (name, some v) ↔ j = .tagged name v := by
  constructor
  · intro h
    unfold choice? at h
    split at h
    · cases h
    · cases h
      rfl
    · cases h
  · rintro rfl
    rfl

/-- A choice is read together with what goes with it. -/
theorem Reads.of_choice?_eq_some {β : Type} {ofJson? : Json → Option α} (h : Reads ofJson? spells)
    {f : α → β} {b : β} {v : Json} (hchoice : j.choice? = some (name, some v))
    (hmap : (ofJson? v).map f = some b) : ∃ a, j = .tagged name v ∧ spells v a ∧ f a = b := by
  obtain ⟨a, ha, hb⟩ := h.map_eq_some_iff.mp hmap
  exact ⟨a, choice?_eq_some_iff.mp hchoice, ha, hb⟩

theorem plainChoice?_eq_some_iff : j.plainChoice? = some name ↔ NamesChoice name j := by
  constructor
  · intro h
    unfold plainChoice? at h
    split at h
    · next hchoice =>
      obtain rfl := Option.some.inj h
      -- A bare name comes from a text.
      unfold choice? at hchoice
      split at hchoice
      · cases hchoice
        exact .bare
      · cases hchoice
      · cases hchoice
    · next hchoice =>
      obtain rfl := Option.some.inj h
      rw [choice?_eq_some_iff.mp hchoice]
      exact .withNull
    · cases h
  · rintro (_ | _) <;> rfl

/-! ## Numbers -/

theorem int?_eq_some_iff {n : Int} : j.int? = some n ↔ j = .int n := by
  cases j <;> simp [int?]

/-- Where each value is one integer, that integer is its only spelling. -/
theorem reads_int {toInt : α → Int} {ofInt? : Int → Option α}
    (h : ∀ n a, ofInt? n = some a ↔ n = toInt a) :
    Reads (fun j => j.int?.bind ofInt?) fun j a => j = .int (toInt a) := fun j a => by
  simp only [Option.bind_eq_some_iff, int?_eq_some_iff, h, exists_eq_right]

/-! ## Texts and truth values -/

theorem reads_str : Reads str? fun j s => j = .str s := fun j s => by
  cases j <;> simp [str?]

theorem reads_bool : Reads bool? fun j b => j = .bool b := fun j b => by
  cases j <;> simp [bool?]

/-! ## Lists and values that may be missing -/

/-- A list is an array with one spelling for each of its members, in order. -/
inductive SpellsList (spells : Json → α → Prop) : Json → List α → Prop where
  | arr {items : List Json} {as : List α} (each : List.Forall₂ spells items as) :
      SpellsList spells (.arr items) as

/-- A value that may be missing is spelled `null` when it is. -/
inductive SpellsOption (spells : Json → α → Prop) : Json → Option α → Prop where
  | null : SpellsOption spells .null none
  | value {j : Json} {a : α} (value : spells j a) : SpellsOption spells j (some a)

theorem mapM_eq_some_iff {β : Type} {f : β → Option α} {items : List β} {as : List α} :
    items.mapM f = some as ↔ List.Forall₂ (fun b a => f b = some a) items as := by
  induction items generalizing as with
  | nil => cases as <;> simp
  | cons b items ih =>
    rw [List.mapM_cons, List.forall₂_cons_left_iff]
    simp only [bind, Option.bind_eq_some_iff, pure, Option.some.injEq, ih]
    constructor
    · rintro ⟨a, ha, rest, hrest, rfl⟩
      exact ⟨a, rest, ha, hrest, rfl⟩
    · rintro ⟨a, rest, ha, hrest, rfl⟩
      exact ⟨a, ha, rest, hrest, rfl⟩

theorem Reads.listOf {item? : Json → Option α} (h : Reads item? spells) :
    Reads (listOf? item?) (SpellsList spells) := by
  intro j as
  have hitems : (fun j a => item? j = some a) = spells :=
    funext fun j => funext fun a => propext (h j a)
  constructor
  · intro hlist
    unfold listOf? at hlist
    split at hlist
    · rw [mapM_eq_some_iff, hitems] at hlist
      exact .arr hlist
    · cases hlist
  · rintro ⟨each⟩
    rw [listOf?, mapM_eq_some_iff, hitems]
    exact each

/-- Reading a value that may be missing, for values that are not spelled `null`. -/
theorem Reads.optionOf {value? : Json → Option α} (h : Reads value? spells)
    (hnull : ∀ a, ¬ spells .null a) : Reads (optionOf? value?) (SpellsOption spells) := by
  intro j o
  unfold optionOf?
  split
  · constructor
    · intro hnone
      obtain rfl := Option.some.inj hnone
      exact .null
    · rintro (_ | ⟨hvalue⟩)
      · rfl
      · exact absurd hvalue (hnull _)
  · next hj =>
    constructor
    · intro hmap
      obtain ⟨a, ha, rfl⟩ := Option.map_eq_some_iff.mp hmap
      exact .value ((h j a).mp ha)
    · rintro (_ | ⟨hvalue⟩)
      · exact absurd rfl hj
      · rw [(h j _).mpr hvalue, Option.map_some]

theorem spellsList_ofList {form : α → Json} (h : ∀ a, spells (form a) a) (as : List α) :
    SpellsList spells (.ofList form as) as :=
  .arr (List.forall₂_map_left_iff.mpr (List.forall₂_same.mpr fun a _ => h a))

theorem spellsOption_ofOption {form : α → Json} (h : ∀ a, spells (form a) a) (o : Option α) :
    SpellsOption spells (.ofOption form o) o := by
  cases o with
  | none => exact .null
  | some a => exact .value (h a)

/-! ## Records -/

/-- A record is an object, or an array with no more items than there are fields. -/
def IsRecord (fields : Nat) : Json → Prop
  | .arr items => items.length ≤ fields
  | .obj _ => True
  | _ => False

/-- What a record holds for a field: the member of the field's name, or the item at its
place. Nothing else in an object matters. -/
def field? (place : Nat) (name : String) : Json → Option Json
  | .arr items => items[place]?
  | .obj members => members.lookup name
  | _ => none

/-- A field that must be there. -/
def SpellsField (spells : Json → α → Prop) (field : Option Json) (a : α) : Prop :=
  ∃ j, field = some j ∧ spells j a

/-- A field that stands for a default where it is left out. -/
def SpellsFieldOr (default : α) (spells : Json → α → Prop) (field : Option Json) (a : α) : Prop :=
  (field = none ∧ a = default) ∨ SpellsField spells field a

/-- A value that may be missing, in a field that may be left out. -/
theorem spellsOption_getD (hnull : ∀ a, ¬ spells .null a) {field : Option Json} {o : Option α} :
    SpellsOption spells (field.getD .null) o ↔
      SpellsFieldOr none (SpellsOption spells) field o := by
  cases field with
  | none =>
    constructor
    · rintro (_ | hvalue)
      · exact .inl ⟨rfl, rfl⟩
      · exact absurd hvalue (hnull _)
    · rintro (⟨-, rfl⟩ | ⟨v, hv, -⟩)
      · exact .null
      · cases hv
  | some v => simp [SpellsFieldOr, SpellsField]

theorem fields?_eq_some_iff {names : List String} {fields : List (Option Json)} :
    j.fields? names = some fields ↔
      j.IsRecord names.length ∧ fields = names.mapIdx fun place name => j.field? place name := by
  cases j with
  | arr items =>
    simp only [fields?, IsRecord, field?]
    split
    · next hle =>
      rw [Option.some.injEq, and_iff_right hle, eq_comm (b := fields)]
      -- Item by item: where the array has ended, the fields are left out.
      have hitems : items.map some ++ List.replicate (names.length - items.length) none =
          names.mapIdx fun place _ => items[place]? := by
        refine List.ext_getElem (by simp; omega) fun i hi _ => ?_
        rw [List.getElem_mapIdx, List.getElem_append]
        split
        · next hlt => simp [List.getElem?_eq_getElem (by simpa using hlt : i < items.length)]
        · next hlt => simp [List.getElem?_eq_none (by simpa using hlt : items.length ≤ i)]
      rw [hitems]
    · next hle => simp [hle]
  | obj members =>
    have hitems : names.map (members.lookup ·) = names.mapIdx fun _ name => members.lookup name :=
      List.ext_getElem (by simp) fun i _ _ => by simp
    simp only [fields?, IsRecord, field?, true_and, Option.some.injEq]
    rw [← hitems, eq_comm]
  | _ => simp [fields?, IsRecord]

end Json

end ZOrder
