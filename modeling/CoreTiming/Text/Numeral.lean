import CoreTiming.Text.Split

namespace CoreTiming

inductive NumeralFault
  | empty
  | invalidDigit
  | tooLarge
  deriving DecidableEq, Repr

def NumeralFault.message : NumeralFault → String
  | .empty => "cannot parse integer from empty string"
  | .invalidDigit => "invalid digit found in string"
  | .tooLarge => "number too large to fit in target type"

namespace Numeral

def wordLimit : Nat := 0xFFFFFFFFFFFFFFFF

def digit? (radix : Nat) (c : Char) : Option Nat :=
  let value :=
    if c.isDigit then some (c.toNat - '0'.toNat)
    else if c.isLower then some (c.toNat - 'a'.toNat + 10)
    else if c.isUpper then some (c.toNat - 'A'.toNat + 10)
    else none
  value.filter (· < radix)

/-- Digits are taken from the left; the first one that is none, or that would pass the limit,
    decides the fault. -/
def readDigits (radix limit : Nat) : Nat → List Char → Except NumeralFault Nat
  | value, [] => .ok value
  | value, c :: rest =>
    match digit? radix c with
    | none => .error .invalidDigit
    | some d =>
      if value * radix + d ≤ limit then readDigits radix limit (value * radix + d) rest
      else .error .tooLarge

/-- A numeral may start with one plus sign, which is no numeral alone. -/
def read (radix limit : Nat) : List Char → Except NumeralFault Nat
  | [] => .error .empty
  | ['+'] => .error .invalidDigit
  | '+' :: digits => readDigits radix limit 0 digits
  | digits => readDigits radix limit 0 digits

/-- A literal is decimal, or hexadecimal after `0x`; underscores between its characters do not
    count. -/
def readLiteral (text : List Char) : Except NumeralFault Nat :=
  match text.filter (· != '_') with
  | '0' :: 'x' :: digits | '0' :: 'X' :: digits => read 16 wordLimit digits
  | digits => read 10 wordLimit digits

def hexDigits (n : Nat) : List Char :=
  Nat.toDigits 16 n

def hex (n : Nat) : String :=
  "0x" ++ String.ofList (hexDigits n)

end Numeral

def hexBytes (bytes : List UInt8) : List Char :=
  bytes.flatMap fun byte => [Nat.digitChar (byte.toNat / 16), Nat.digitChar (byte.toNat % 16)]

end CoreTiming
