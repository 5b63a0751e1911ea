import CoreTiming.Json.Basic

namespace CoreTiming.Json

def put (key : Text) (value : Value) (members : List (Text × Value)) : List (Text × Value) :=
  if members.any (·.1 == key) then
    members.map fun member => if member.1 == key then (key, value) else member
  else members ++ [(key, value)]

def putAll (new members : List (Text × Value)) : List (Text × Value) :=
  new.foldl (fun members member => put member.1 member.2 members) members

namespace Number

def nearest (n : Number) : Float :=
  let digits := value (n.whole ++ n.fraction)
  let exponent := n.exponent.getD 0 - n.fraction.length
  let magnitude := Float.ofScientific digits (exponent < 0) exponent.natAbs
  if n.negative then -magnitude else magnitude

/-- Whole numbers know no negative zero, and no number stands for an infinity. -/
def canonical? (n : Number) : Option Value :=
  if !n.isWhole then if n.nearest.isFinite then some (.float n.nearest) else none
  else if value n.whole = 0 then some (.nat 0)
  else some (.number n)

end Number

mutual

/-- Of repeated members the last one counts. A text with half of a surrogate pair is no text. -/
def Value.canonical? : Value → Option Value
  | .null => some .null
  | .bool b => some (.bool b)
  | .number n => n.canonical?
  | .text t => t.map .string
  | .array items => (canonicalItems? items).map .array
  | .object members => (canonicalMembers? members).map fun members => .object (putAll members [])

def canonicalItems? : List Value → Option (List Value)
  | [] => some []
  | item :: rest => do return (← item.canonical?) :: (← canonicalItems? rest)

def canonicalMembers? : List (Text × Value) → Option (List (Text × Value))
  | [] => some []
  | (key, value) :: rest => do
    return (some (← key), ← value.canonical?) :: (← canonicalMembers? rest)

end

end CoreTiming.Json
