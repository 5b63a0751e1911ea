import CoreTiming.Json.Basic

namespace CoreTiming.Json

/-- The members with one of the given names; none if a key is no text or a name is repeated. -/
def knownMembers (names : List String) : List (Text × Value) → Option (List (String × Value))
  | [] => some []
  | (none, _) :: _ => none
  | (some key, value) :: rest =>
    match knownMembers names rest with
    | none => none
    | some known =>
      if !names.contains key then some known
      else if known.any (·.1 == key) then none
      else some ((key, value) :: known)

/-- Trailing fields of an array may be missing, but it may not have more than there are names. -/
def Value.fields? (names : List String) : Value → Option (List (String × Value))
  | .object members => knownMembers names members
  | .array items => if items.length ≤ names.length then some (names.zip items) else none
  | _ => none

def field {α : Type} (fields : List (String × Value)) (name : String) (default : α)
    (reader : Value → Option α) : Option α :=
  match fields.find? (·.1 == name) with
  | none => some default
  | some (_, value) => reader value

namespace Value

def asText? : Value → Option String
  | .text t => t
  | _ => none

def asBool? : Value → Option Bool
  | .bool b => some b
  | _ => none

def asWord? (bits : Nat) : Value → Option Nat
  | .number n => n.toNat?.filter (· < Nat.pow 2 bits)
  | _ => none

def asOption? {α : Type} (reader : Value → Option α) : Value → Option (Option α)
  | .null => some none
  | value => (reader value).map some

def asFlag? : Value → Option Bool
  | .bool b => some b
  | value => (value.asWord? 64).map (· != 0)

def asTime? : Value → Option String
  | .text t => t
  | .number n =>
    match (Value.number n).asWord? 64 with
    | some word => some (toString word)
    | none => n.toFloat?.map fun x => (Decimal.Double.ofFloat x).plain
  | _ => none

/-- One of several names, written as a text or as the only member of an object, with `null`. -/
def asChoice? {α : Type} (choices : List (String × α)) : Value → Option α
  | .text (some name) => choices.lookup name
  | .object [(some name, .null)] => choices.lookup name
  | _ => none

def member? (name : String) : Value → Option Value
  | .object members => (members.reverse.find? (·.1 == some name)).map (·.2)
  | _ => none

end Value

end CoreTiming.Json
