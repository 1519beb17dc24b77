import RustHouse.Float64Syntax
import RustHouse.Int64Text
import RustHouse.Predicate
import RustHouse.ScalarCast
import RustHouse.ValueCmp

/-!
# Scalar functions

The functions and casts of single values: which of them fail, and with which error.
-/

namespace Binary64

/-- Rounded down. -/
def floor (bits : Nat) : Nat :=
  if signBit bits = 0 ∨ trunc bits = bits then trunc bits else ofInt (toInt bits - 1)

/-- Rounded up; what is rounded up to zero keeps its sign. -/
def ceil (bits : Nat) : Nat :=
  if signBit bits ≠ 0 ∨ trunc bits = bits then trunc bits else ofInt (toInt bits + 1)

/-- Rounded to the nearest integer, and from the middle away from zero. -/
def round (bits : Nat) : Nat :=
  if 2 * (magnitude bits % one) < one then trunc bits
  else if signBit bits = 0 then ofInt (toInt bits + 1) else ofInt (toInt bits - 1)

end Binary64

namespace RustHouse.Batch

open Checked Exec Words

namespace F64

def abs (x : F64) : F64 := ⟨UInt64.ofNat (x.bits.toNat % 2 ^ 63)⟩

def round (x : F64) : F64 := ⟨UInt64.ofNat (Binary64.round x.bits.toNat)⟩

def floor (x : F64) : F64 := ⟨UInt64.ofNat (Binary64.floor x.bits.toNat)⟩

def ceil (x : F64) : F64 := ⟨UInt64.ofNat (Binary64.ceil x.bits.toNat)⟩

/-- `x != 0.0`. -/
def isNonzero (x : F64) : Bool := x.partialCmp .zero ≠ some .eq

def one : F64 := ⟨0x3ff0000000000000⟩

def infinity : F64 := ⟨0x7ff0000000000000⟩

def negInfinity : F64 := ⟨0xfff0000000000000⟩

end F64

/-- `i64::try_from`: the integer, if it is one of 64 bits. -/
def tryInt64 (n : Int) : Option Int64 := if (Int64.ofInt n).toInt = n then some (Int64.ofInt n) else none

def toAsciiUppercase (s : String) : String := String.ofList (s.toList.map Char.toUpper)

def checkedAbs : Value → Exec Error Value
  | .null .int64 => .ok (.null .int64)
  | .int64 value => getOr ((tryInt64 value.toInt.natAbs).map .int64) (.numericOverflow "ABS(Int64)")
  | _ => .panic

/-- The order of `ABS`, also where it overflows. -/
def absCmp : Value → Value → Option Ordering
  | .null .int64, .null .int64 => some .eq
  | .null .int64, .int64 _ => some .lt
  | .int64 _, .null .int64 => some .gt
  | .int64 left, .int64 right => some (compare left.toInt.natAbs right.toInt.natAbs)
  | _, _ => none

def checkedSubtract (literal : Int64) : Value → Exec Error Value
  | .null .int64 => .ok (.null .int64)
  | .int64 value =>
    getOr ((tryInt64 (value.toInt - literal.toInt)).map .int64) (.numericOverflow "Int64 subtraction")
  | _ => .panic

def ifNull (fallback : Int64) : Value → Option Int64
  | .null .int64 => some fallback
  | .int64 value => some value
  | _ => none

def checkedFloat64ToInt64 (value : F64) : Exec Error Int64 :=
  if ¬ value.isFinite ∨ value.partialCmp (.ofInt64 Int64.minValue) = some .lt ∨
      value.partialCmp int64UpperExclusive = some .gt ∨ value.partialCmp int64UpperExclusive = some .eq then
    .error (.numericOverflow "CAST(Float64 AS Int64)")
  else .ok value.trunc.asInt64

def invalidStringToFloat64Cast : Error := .invalidCast .string .float64

def stringToFloat64Overflow : Error := .numericOverflow "CAST(String AS Float64)"

def validateStringToFloat64Syntax (value : String) : Exec Error Unit :=
  rejectIf (¬ ScalarCast.float64Text value) invalidStringToFloat64Cast

def boolText (value : String) : Option Bool :=
  if eqIgnoreAsciiCase value "true" then some true
  else if eqIgnoreAsciiCase value "false" then some false
  else none

def checkedStringToBool (value : String) : Exec Error Bool :=
  getOr (boolText value) (.invalidCast .string .bool)

def lengthToI64 (function : String) (length : Nat) : Exec Error Int64 :=
  getOr (tryInt64 length) (.numericOverflow function)

def stringLengthToI64 (length : Nat) : Exec Error Int64 := lengthToI64 "LENGTH(String)" length

def stringLengthUtf8ToI64 (value : String) : Exec Error Int64 := lengthToI64 "lengthUTF8(String)" value.toList.length

def renderBool (value : Bool) : String := if value then "true" else "false"

def maxFloat64TextBytes : Nat := 327

section
variable (float : FloatText)

def checkedStringToFloat64 (value : String) : Exec Error F64 := do
  validateStringToFloat64Syntax value
  let value ← getOr (float.parse value) stringToFloat64Overflow
  rejectIf (¬ value.isFinite) stringToFloat64Overflow
  .ok value

/-- The number that a valid text is ordered by. -/
def orderingStringToFloat64 (value : String) : F64 :=
  (float.parse value).getD (if startsWith value "-" then .negInfinity else .infinity)

/-- The text of a number, which has to fit its buffer. -/
def renderFloat64 (value : F64) : Option String :=
  if stringLen (float.toText value) ≤ maxFloat64TextBytes then some (float.toText value) else none

def float64Cmp (left right : F64) : Option Ordering := do
  let left ← renderFloat64 float left
  let right ← renderFloat64 float right
  some (compare left right)

end

end RustHouse.Batch
