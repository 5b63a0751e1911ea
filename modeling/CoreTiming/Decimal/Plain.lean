import CoreTiming.Decimal.Shortest

namespace CoreTiming.Decimal

/-- The decimal digits of `d`, and how many of them stand before the point; zero is `0`. -/
def Scaled.layout (d : Scaled) : List Nat × Int :=
  let written := (Nat.toDigits 10 d.digits).map fun c => c.toNat - '0'.toNat
  let significant := (written.reverse.dropWhile (· = 0)).reverse
  if significant.isEmpty then ([], 1)
  else (significant, written.length + d.exponent)

def digitText (digits : List Nat) : String :=
  String.ofList (digits.map Nat.digitChar)

def Scaled.plain (d : Scaled) : String :=
  let (digits, point) := d.layout
  let count := digits.length
  if point ≤ 0 then
    "0." ++ digitText (List.replicate (-point).toNat 0 ++ digits)
  else if count ≤ point.toNat then
    digitText (digits ++ List.replicate (point.toNat - count) 0)
  else
    digitText (digits.take point.toNat) ++ "." ++ digitText (digits.drop point.toNat)

def Double.plain : Double → String
  | .finite x => (if x.negative then "-" else "") ++ x.shortest.plain
  | .infinite negative => if negative then "-inf" else "inf"
  | .undefined => "NaN"

end CoreTiming.Decimal
