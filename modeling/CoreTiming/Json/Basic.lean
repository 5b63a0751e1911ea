import CoreTiming.Text.Numeral
import CoreTiming.Decimal.Plain

namespace CoreTiming.Json

structure Number where
  negative : Bool
  whole : List Nat
  fraction : List Nat
  exponent : Option Int
  deriving DecidableEq, Repr

/-- A text, or `none` for one with an escape that is half of a surrogate pair. -/
abbrev Text := Option String

inductive Value
  | null
  | bool (value : Bool)
  | number (value : Number)
  | text (value : Text)
  | array (items : List Value)
  | object (members : List (Text × Value))
  deriving Inhabited, Repr

namespace Number

def ofNat (n : Nat) : Number where
  negative := false
  whole := (Nat.toDigits 10 n).map fun c => c.toNat - '0'.toNat
  fraction := []
  exponent := none

def isWhole (n : Number) : Bool :=
  n.fraction.isEmpty && n.exponent.isNone

def value (digits : List Nat) : Nat :=
  digits.foldl (fun total d => 10 * total + d) 0

def toNat? (n : Number) : Option Nat :=
  if n.negative || !n.isWhole then none else some (value n.whole)

/-- The value of the leading digits that a 64-bit word can hold, and the digits left over. -/
def leading : Nat → List Nat → Nat × List Nat
  | total, [] => (total, [])
  | total, d :: rest =>
    if 10 * total + d ≤ Numeral.wordLimit then leading (10 * total + d) rest else (total, d :: rest)

/-- One multiplication or division by a power of ten; exponents below the table are reached in
    steps of its last power. -/
def scale (x : Float) (exponent : Int) : Option Float :=
  if exponent.natAbs ≤ 308 then
    let power := Float.ofScientific 1 false exponent.natAbs
    if 0 ≤ exponent then
      let scaled := x * power
      if scaled.isInf then none else some scaled
    else some (x / power)
  else if x == 0 then some x
  else if 0 ≤ exponent then none
  else scale (x / 1e308) (exponent + 308)
termination_by (-exponent).toNat

/-- The double-precision reading, unless it is too large. Whole digits past the 64-bit
    significand count as a power of ten, and such digits after the point are ignored. -/
def toFloat? (n : Number) : Option Float :=
  let (head, wholeRest) := leading 0 n.whole
  let (significand, fractionRest) := leading head n.fraction
  let taken := n.fraction.length - fractionRest.length
  let exponent := n.exponent.getD 0 + (wholeRest.length : Int) - (taken : Int)
  (scale (UInt64.ofNat significand).toFloat exponent).map fun x => if n.negative then -x else x

/-- A written number keeps at least one digit after the point unless it needs an exponent, which
    it does when the point lies more than four zeros before its digits or beyond sixteen places. -/
def ofScaled (negative : Bool) (d : Decimal.Scaled) : Number :=
  let (digits, point) := d.layout
  let count := digits.length
  if digits.isEmpty then ⟨negative, [0], [0], none⟩
  else if point ≤ -5 || 16 < point then
    ⟨negative, digits.take 1, digits.drop 1, some (point - 1)⟩
  else if point ≤ 0 then
    ⟨negative, [0], List.replicate (-point).toNat 0 ++ digits, none⟩
  else if count ≤ point.toNat then
    ⟨negative, digits ++ List.replicate (point.toNat - count) 0, [0], none⟩
  else
    ⟨negative, digits.take point.toNat, digits.drop point.toNat, none⟩

end Number

namespace Value

def nat (n : Nat) : Value :=
  .number (.ofNat n)

def string (s : String) : Value :=
  .text (some s)

def float (x : Float) : Value :=
  match Decimal.Double.ofFloat x with
  | .finite b => .number (.ofScaled b.negative b.shortest)
  | _ => .null

def record (members : List (String × Value)) : Value :=
  .object (members.map fun member => (some member.1, member.2))

end Value

end CoreTiming.Json
