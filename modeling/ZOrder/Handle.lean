/-
  ZOrder.Handle

  Window handles. A handle type is a set of integers with a text form; the two
  types of handle in use are the 32-bit signed numbers and the 32-bit unsigned
  numbers of the X protocol.
-/

namespace ZOrder

/-- What a type of window handles offers: a faithful integer form and a text form. -/
class WindowHandle (H : Type) where
  /-- The integer a handle is written as. -/
  toInt : H → Int
  /-- The handle that an integer stands for, if it is in range. -/
  ofInt? : Int → Option H
  /-- How a handle is shown to people. -/
  text : H → String
  /-- Every handle is the one its integer stands for. -/
  ofInt?_toInt : ∀ h, ofInt? (toInt h) = some h
  /-- Only its own integer stands for a handle. -/
  toInt_of_ofInt? : ∀ n h, ofInt? n = some h → toInt h = n

/-- The 32-bit signed number with a value, if there is one. -/
def int32? (n : Int) : Option Int32 :=
  if -0x80000000 ≤ n ∧ n < 0x80000000 then some (Int32.ofInt n) else none

theorem int32?_toInt (w : Int32) : int32? w.toInt = some w := by
  have lo := w.le_toInt
  have hi := w.toInt_lt
  simp only [int32?, Int32.ofInt_toInt]
  rw [if_pos]
  omega

theorem toInt_of_int32? {n : Int} {w : Int32} (h : int32? n = some w) : w.toInt = n := by
  simp only [int32?] at h
  split at h
  · next inRange =>
    obtain rfl := Option.some.inj h
    exact Int32.toInt_ofInt_of_le (by omega) (by omega)
  · contradiction

/-- The 32-bit unsigned number with a value, if there is one. -/
def uint32? (n : Int) : Option UInt32 :=
  if 0 ≤ n ∧ n < 0x100000000 then some (UInt32.ofNat n.toNat) else none

theorem uint32?_toNat (w : UInt32) : uint32? w.toNat = some w := by
  have hi := w.toNat_lt
  simp only [uint32?, Int.toNat_natCast, UInt32.ofNat_toNat]
  rw [if_pos]
  omega

theorem toNat_of_uint32? {n : Int} {w : UInt32} (h : uint32? n = some w) : (w.toNat : Int) = n := by
  simp only [uint32?] at h
  split at h
  · next inRange =>
    obtain rfl := Option.some.inj h
    rw [UInt32.toNat_ofNat_of_lt' (by simp [UInt32.size]; omega)]
    omega
  · contradiction

/-- The 64-bit unsigned number with a value, if there is one. -/
def uint64? (n : Int) : Option UInt64 :=
  if 0 ≤ n ∧ n < 0x10000000000000000 then some (UInt64.ofNat n.toNat) else none

theorem uint64?_toNat (w : UInt64) : uint64? w.toNat = some w := by
  have hi := w.toNat_lt
  simp only [uint64?, Int.toNat_natCast, UInt64.ofNat_toNat]
  rw [if_pos]
  omega

theorem toNat_of_uint64? {n : Int} {w : UInt64} (h : uint64? n = some w) : (w.toNat : Int) = n := by
  simp only [uint64?] at h
  split at h
  · next inRange =>
    obtain rfl := Option.some.inj h
    rw [UInt64.toNat_ofNat_of_lt' (by simp [UInt64.size]; omega)]
    omega
  · contradiction

/-- Plain handles are shown as their number. -/
instance : WindowHandle Int32 where
  toInt := Int32.toInt
  ofInt? := int32?
  text w := toString w.toInt
  ofInt?_toInt := int32?_toInt
  toInt_of_ofInt? _ _ := toInt_of_int32?

/-- Handles of the X protocol are shown with the name of their type. -/
instance : WindowHandle UInt32 where
  toInt w := (w.toNat : Int)
  ofInt? := uint32?
  text w := "X11rbWindowHandle(" ++ toString w.toNat ++ ")"
  ofInt?_toInt := uint32?_toNat
  toInt_of_ofInt? _ _ := toNat_of_uint32?

end ZOrder
