import CoreTiming.Config.Error

namespace CoreTiming

/-- The fields that an entry gives to one core. -/
structure Selection where
  core : Nat
  fields : List String
  deriving DecidableEq, Repr

namespace PerCore

def everyCore : List Char := "CORES".toList

def entries (setting raw : String) : Except ConfigError (List (List Char)) :=
  match (Text.after? ['['] (Text.trim raw.toList)).bind (Text.upTo? [']']) with
  | none => .error (.malformed setting (.notEnclosed raw))
  | some body => .ok (((Text.splitAt ',' body).map Text.trim).filter (!·.isEmpty))

def select (setting : String) (cores fields : Nat) (entry : List Char) :
    Except ConfigError (List Selection) :=
  match (Text.splitAt ':' entry).map Text.trim with
  | [] => .ok []
  | selector :: parts =>
    let values := parts.map String.ofList
    if parts.length ≠ fields then
      .error (.malformed setting (.fieldCount (String.ofList entry) (parts.length + 1) (fields + 1)))
    else if Text.upper selector = everyCore then .ok ((List.range cores).map (⟨·, values⟩))
    else
      match Numeral.read 10 Numeral.wordLimit selector with
      | .error _ => .error (.malformed setting (.notCoreIndex (String.ofList selector)))
      | .ok core =>
        if core < cores then .ok [⟨core, values⟩] else .error (.coreOutOfRange setting core cores)

/-- The selections of the entries before the first faulty one, and its fault. -/
def selectAll (setting : String) (cores fields : Nat) :
    List (List Char) → List Selection × Option ConfigError
  | [] => ([], none)
  | entry :: rest =>
    match select setting cores fields entry with
    | .error fault => ([], some fault)
    | .ok selections =>
      let (others, fault) := selectAll setting cores fields rest
      (selections ++ others, fault)

def selections (setting raw : String) (cores fields : Nat) : List Selection × Option ConfigError :=
  match entries setting raw with
  | .error fault => ([], some fault)
  | .ok entries => selectAll setting cores fields entries

variable {α : Type}

def attempted (reader : Selection → Except ConfigError α) : List Selection → List Selection
  | [] => []
  | selection :: rest =>
    match reader selection with
    | .error _ => [selection]
    | .ok _ => selection :: attempted reader rest

def assign {ι : Type} (reader : ι → Except ConfigError (Nat × α)) :
    Array (Option α) → List ι → Except ConfigError (Array (Option α))
  | table, [] => .ok table
  | table, item :: rest => do
    let (core, value) ← reader item
    assign reader (table.setIfInBounds core (some value)) rest

/-- The values of the cores from `core` on; the first core without one is missing. -/
def complete (setting : String) (core : Nat) : List (Option α) → Except ConfigError (List α)
  | [] => .ok []
  | none :: _ => .error (.missingCore setting core)
  | some value :: rest => do return value :: (← complete setting (core + 1) rest)

def read (setting raw : String) (cores fields : Nat) (reader : Selection → Except ConfigError α) :
    Except ConfigError (List α) := do
  let (selections, fault) := selections setting raw cores fields
  let table ← assign (fun s => return (s.core, ← reader s)) (.replicate cores none) selections
  match fault with
  | some fault => .error fault
  | none => complete setting 0 table.toList

end PerCore

def readUnsigned (setting raw : String) : Except ConfigError Nat :=
  match Numeral.readLiteral (Text.trim raw.toList) with
  | .ok value => .ok value
  | .error _ => .error (.malformed setting (.notUnsigned raw))

end CoreTiming
