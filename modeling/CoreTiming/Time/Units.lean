import CoreTiming.Text.Numeral
import CoreTiming.Time.Clock

namespace CoreTiming

inductive UnitFault
  | noNumber
  | fractionOfTick
  | malformedNumber
  | notFinite
  | unknownUnit
  | timebaseNotPositive
  | timebaseNotDuration
  | frequencyNotPositive
  | belowOneTick
  | frequencyForTime
  deriving DecidableEq, Repr

def UnitFault.message : UnitFault → String
  | .noNumber => "expected a leading number"
  | .fractionOfTick => "unitless values must be whole tick counts"
  | .malformedNumber => "malformed number"
  | .notFinite => "value must be finite and non-negative"
  | .unknownUnit => "unknown unit"
  | .timebaseNotPositive => "timebase must be positive"
  | .timebaseNotDuration => "timebase must be a duration such as `1ps`"
  | .frequencyNotPositive => "frequency must be positive"
  | .belowOneTick => "period is shorter than one timebase tick"
  | .frequencyForTime => "expected a duration, not a frequency"

/-- A quantity as written: hertz, femtoseconds or ticks. -/
inductive Quantity
  | frequency (hertz : Float)
  | duration (femtoseconds : Float)
  | ticks (count : Nat)

namespace Quantity

def femtosecondsPerSecond : Float := 1e15

def decimal? (text : List Char) : Option Float :=
  let whole := text.takeWhile (· != '.')
  let fraction := (text.dropWhile (· != '.')).drop 1
  let digits := whole ++ fraction
  if digits.isEmpty || fraction.contains '.' then none
  else
    let value := digits.foldl (fun total c => 10 * total + (c.toNat - '0'.toNat)) 0
    some (Float.ofScientific value true fraction.length)

def withUnit? (value : Float) (unit : String) : Option Quantity :=
  match unit with
  | "hz" => some (.frequency value)
  | "khz" => some (.frequency (value * 1e3))
  | "mhz" => some (.frequency (value * 1e6))
  | "ghz" => some (.frequency (value * 1e9))
  | "s" => some (.duration (value * femtosecondsPerSecond))
  | "ms" => some (.duration (value * 1e12))
  | "us" => some (.duration (value * 1e9))
  | "ns" => some (.duration (value * 1e6))
  | "ps" => some (.duration (value * 1e3))
  | "fs" => some (.duration value)
  | _ => none

/-- A number, then a unit in any letter case; a whole number alone counts ticks. -/
def parse (raw : String) : Except UnitFault Quantity :=
  let text := Text.trim raw.toList
  let isNumeric := fun c : Char => c.isDigit || c = '.'
  let number := text.takeWhile isNumeric
  let unit := Text.trim (text.dropWhile isNumeric)
  if number.isEmpty then .error .noNumber
  else if unit.isEmpty then
    match Numeral.read 10 Numeral.wordLimit number with
    | .ok count => .ok (.ticks count)
    | .error _ => .error .fractionOfTick
  else
    match decimal? number with
    | none => .error .malformedNumber
    | some value =>
      if !value.isFinite || value < 0 then .error .notFinite
      else
        match withUnit? value (String.ofList (Text.lower unit)) with
        | none => .error .unknownUnit
        | some quantity => .ok quantity

end Quantity

/-- The nearest whole number of ticks, halves away from zero, within the horizon. -/
def wholeTicks (count : Float) : Nat :=
  let whole := count.toUInt64
  if 0.5 ≤ count - whole.toFloat then min (whole.toNat + 1) horizon else whole.toNat

def parseTimebase (raw : String) : Except UnitFault Float := do
  match ← Quantity.parse raw with
  | .duration fs => if fs > 0 then .ok fs else .error .timebaseNotPositive
  | .frequency _ | .ticks _ => .error .timebaseNotDuration

def parsePeriod (raw : String) (timebase : Float) : Except UnitFault Nat := do
  let period ← match ← Quantity.parse raw with
    | .frequency hertz =>
      if hertz > 0 then .ok (Quantity.femtosecondsPerSecond / hertz)
      else .error .frequencyNotPositive
    | .duration fs => .ok fs
    | .ticks count => .ok ((UInt64.ofNat count).toFloat * timebase)
  let count := period / timebase
  if count < 0.5 then .error .belowOneTick else .ok (wholeTicks count)

def parseTime (raw : String) (timebase : Float) : Except UnitFault Nat := do
  match ← Quantity.parse raw with
  | .ticks count => .ok count
  | .duration fs => .ok (wholeTicks (fs / timebase))
  | .frequency _ => .error .frequencyForTime

end CoreTiming
