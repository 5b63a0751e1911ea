namespace CoreTiming.Decimal

structure Binary where
  negative : Bool
  mantissa : Nat
  exponent : Int
  /-- The numbers below are only half as far away as those above. -/
  lowestOfBinade : Bool
  deriving DecidableEq, Repr

inductive Double
  | finite (value : Binary)
  | infinite (negative : Bool)
  | undefined
  deriving DecidableEq, Repr

def Double.ofBits (bits : Nat) : Double :=
  let negative := bits / Nat.pow 2 63 % 2 == 1
  let biased : Nat := bits / Nat.pow 2 52 % Nat.pow 2 11
  let fraction : Nat := bits % Nat.pow 2 52
  if biased = Nat.pow 2 11 - 1 then
    if fraction = 0 then .infinite negative else .undefined
  else if biased = 0 then .finite ⟨negative, fraction, -1074, false⟩
  else .finite ⟨negative, Nat.pow 2 52 + fraction, Int.ofNat biased - 1075, fraction == 0 && 1 < biased⟩

def Double.ofFloat (x : Float) : Double :=
  .ofBits x.toBits.toNat

def Binary.quotient (x : Binary) : Nat × Nat :=
  (x.mantissa * Nat.pow 2 x.exponent.toNat, Nat.pow 2 (-x.exponent).toNat)

end CoreTiming.Decimal
