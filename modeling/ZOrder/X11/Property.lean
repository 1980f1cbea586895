/-
  ZOrder.X11.Property

  Properties of X windows, and what the three that matter here say about a window:
  `WM_TRANSIENT_FOR` its owner, `WM_HINTS` its group, `WM_NAME` its name.

  A client reads a property with the type it wants and a limit in 32-bit words. If
  the property has another type, the answer carries that type and no value; a
  property that is not there answers type 0, format 0 and no value.
-/

import ZOrder.Text.Utf8

namespace ZOrder.X11

/-- A number that stands for a name, such as the type of a property. -/
abbrev Atom := UInt32

/-- The type `STRING`. -/
def Atom.string : Atom := 31

/-- The type `WINDOW`. -/
def Atom.window : Atom := 33

/-- The type `WM_HINTS`. -/
def Atom.wmHints : Atom := 35

/-- A property of a window, or what a client is told of it. -/
structure Property where
  type : Atom
  /-- How many bits a unit of the value has: 8, 16 or 32. -/
  format : Nat
  value : List UInt8
  deriving DecidableEq, Repr

/-- The bytes of a unit of some width, lowest first. -/
def unitBytes (bits : Nat) (unit : UInt32) : List UInt8 :=
  (List.range (bits / 8)).map fun i => UInt8.ofNat (unit.toNat >>> (8 * i))

/-- The property that some units of a width make up. -/
def Property.ofUnits (type : Atom) (format : Nat) (units : List UInt32) : Property :=
  ⟨type, format, units.flatMap (unitBytes format)⟩

/-- What a client is told that wants a type, or any, and at most `words` words. -/
def Property.read (p : Option Property) (wanted : Option Atom) (words : Nat) : Property :=
  match p with
  | none => ⟨0, 0, []⟩
  | some p =>
    if wanted.all (· == p.type) then { p with value := p.value.take (4 * words) }
    else { p with value := [] }

/-- The 32-bit words that bytes make up, lowest byte first; bytes left over are dropped. -/
def words : List UInt8 → List UInt32
  | a :: b :: c :: d :: rest =>
    UInt32.ofNat (((d.toNat * 256 + c.toNat) * 256 + b.toNat) * 256 + a.toNat) :: words rest
  | _ => []

/-! ## What the properties say -/

/-- The owner that `WM_TRANSIENT_FOR` names. Neither 0 nor the root is an owner: such a
window belongs to its whole group. -/
def owner (root : UInt32) (transientFor : Option Property) : Option UInt32 :=
  let reply := Property.read transientFor (some Atom.window) 1
  if reply.format = 32 then
    (words reply.value).head?.filter fun w => w != 0 && w != root
  else none

/-- The group leader that `WM_HINTS` names. The hint must have all nine words; flag 64
says that the last one is there, and with flag 2 the third one must be a known state. -/
def groupLeader (hints : Option Property) : Option UInt32 :=
  let reply := Property.read hints (some Atom.wmHints) 9
  if reply.type = Atom.wmHints ∧ reply.format = 32 then
    match words reply.value with
    | [flags, _, state, _, _, _, _, _, leader] =>
      if flags &&& 2 ≠ 0 ∧ state ≠ 1 ∧ state ≠ 3 then none
      else if flags &&& 64 = 0 then none
      else some leader
    | _ => none
  else none

/-- The name that `WM_NAME` gives, of any type and at most 4096 words. A name that is no
UTF-8 text is none; a window without the property has the empty name. -/
def windowName (name : Option Property) : Option String :=
  match Text.utf8 (Property.read name none 4096).value with
  | .ok s => some s
  | .error _ => none

end ZOrder.X11
