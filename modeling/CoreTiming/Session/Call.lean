import CoreTiming.Session

namespace CoreTiming

namespace Session

structure World where
  session : Session
  environment : Environment

/-- A call has a result or an error, and leaves a world behind in either case. -/
abbrev Method (α : Type) := ExceptT SessionError (StateM World) α

namespace Method

def perform {α : Type} (method : Method α) (world : World) : Except SessionError α × World :=
  (ExceptT.run method).run world

def leave (session : Session) : Method Unit :=
  modify fun world => { world with session := session }

def settings : Method (List (Json.Text × Json.Value)) := do
  ofExcept (← get).session.settings

/-- The members of a section. A new section takes the place of one that is missing or is no object. -/
def openSection (target : Section) : Method (List (Json.Text × Json.Value)) := do
  let settings ← settings
  match settings.lookup (some target.name) with
  | some (.object members) => return members
  | _ =>
    leave (.building (Json.put (some target.name) (.object []) settings))
    return []

def extend (target : Section) (new : List (Json.Text × Json.Value)) : Method Unit := do
  let members ← openSection target
  let settings ← settings
  leave (.building (Json.put (some target.name) (.object (Json.putAll new members)) settings))

def setOption (key : String) (value : Json.Value) : Method Unit := do
  let value ← ofExcept (exchanged value)
  extend .options [(some key, value)]

def setStatisticLevel (level : Nat) : Method Unit := do
  let settings ← settings
  leave (.building (Json.put (some "statistic_load_level") (.nat level) settings))

def merge (target : Section) (parameters : Json.Value) : Method Unit := do
  match ← ofExcept (exchanged parameters) with
  | .object new => extend target new
  | _ => throw (.notSection target.name)

/-- The simulator is a new one until its run is over. -/
def run : Method Summary := do
  let config ← ofExcept (readable (Config.ofValue? (.object (← settings))))
  let (session, summary) ← ofExcept (launch (← get).environment config)
  leave session
  return summary

/-- The simulator is taken out of the session; settings that are found in its place are put back. -/
def statistics (format : String) : Method String := do
  let format ← ofExcept (readFormat format)
  let session := (← get).session
  leave .flushed
  match session with
  | .finished sim => return sim.statistics format
  | .building settings =>
    leave (.building settings)
    throw .notRun
  | .flushed => throw .alreadyFlushed

def writeStatistics (path format : String) : Method Unit := do
  let text ← statistics format
  let world ← get
  let files ← ofExcept ((world.environment.files.write path text).mapError (.unwritable path))
  set { world with environment.files := files }

end Method

inductive Setter
  | option (key : String) (value : Json.Value)
  | level (highest : Fin 256)
  | parameters (target : Section) (value : Json.Value)

def Setter.method : Setter → Method Unit
  | .option key value => Method.setOption key value
  | .level highest => Method.setStatisticLevel highest
  | .parameters target value => Method.merge target value

inductive Call
  | set (setter : Setter)
  | run
  | statistics (format : String)
  | write (path format : String)

inductive Answer
  | done
  | summary (summary : Summary)
  | text (text : String)
  deriving DecidableEq, Repr

def Call.method : Call → Method Answer
  | .set setter => do
    setter.method
    return .done
  | .run => return .summary (← Method.run)
  | .statistics format => return .text (← Method.statistics format)
  | .write path format => do
    Method.writeStatistics path format
    return .done

inductive ArgumentFault
  | notText
  | notInteger
  | outOfRange
  | notWritable
  deriving DecidableEq, Repr

inductive CallError
  | argument (fault : ArgumentFault)
  | session (error : SessionError)
  deriving DecidableEq, Repr

/-- An argument as JSON writes it, or `none` for one that it cannot write. -/
abbrev Argument := Option Json.Value

inductive Request
  | option (key value : Argument)
  | level (value : Argument)
  | parameters (target : Section) (value : Argument)
  | run
  | statistics (format : Option Argument)
  | write (path : Argument) (format : Option Argument)

namespace Argument

def asText : Argument → Except ArgumentFault String
  | some (.text (some text)) => .ok text
  | _ => .error .notText

/-- Truth values are integers too. -/
def asLevel : Argument → Except ArgumentFault (Fin 256)
  | some (.bool b) => .ok (if b then 1 else 0)
  | some (.number n) =>
    if !n.isWhole then .error .notInteger
    else
      let magnitude := Json.Number.value n.whole
      if inside : magnitude < 256 then
        if n.negative && magnitude != 0 then .error .outOfRange else .ok ⟨magnitude, inside⟩
      else .error .outOfRange
  | _ => .error .notInteger

def asValue : Argument → Except ArgumentFault Json.Value
  | some value => .ok value
  | none => .error .notWritable

end Argument

namespace Request

def format : Option Argument → Except ArgumentFault String
  | none => .ok "csv"
  | some format => format.asText

def call : Request → Except ArgumentFault Call
  | .option key value => return .set (.option (← key.asText) (← value.asValue))
  | .level value => return .set (.level (← value.asLevel))
  | .parameters target value => return .set (.parameters target (← value.asValue))
  | .run => .ok .run
  | .statistics style => return .statistics (← format style)
  | .write path style => return .write (← path.asText) (← format style)

/-- The arguments are read before the session is touched. -/
def perform (request : Request) (world : World) : Except CallError Answer × World :=
  match request.call with
  | .error fault => (.error (.argument fault), world)
  | .ok call =>
    let (result, after) := call.method.perform world
    (result.mapError .session, after)

def answers : List Request → World → List (Except CallError Answer)
  | [], _ => []
  | request :: rest, world =>
    let (answer, after) := request.perform world
    answer :: answers rest after

end Request

end Session

end CoreTiming
