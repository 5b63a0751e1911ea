import CoreTiming.Config.Document
import CoreTiming.Json.Canonical
import CoreTiming.Simulator.Run

namespace CoreTiming

/-- The settings so far, the simulator after its run, or nothing once the statistics are taken. -/
inductive Session
  | building (settings : List (Json.Text × Json.Value))
  | finished (sim : Simulator)
  | flushed

inductive SessionError
  | configuration (error : ConfigError)
  | notSection (name : String)
  | unknownFormat (name : String)
  | unregistered (core : Nat)
  | alreadyRan
  | notRun
  | alreadyFlushed
  | unwritable (path : String) (fault : FileFault)
  deriving DecidableEq, Repr

def SessionError.message : SessionError → String
  | .configuration error => error.message
  | .notSection name => s!"{name} parameters must be a dict"
  | .unknownFormat name => s!"unknown statistics format `{name}` (expected csv or json)"
  | .unregistered core => unregisteredMessage core
  | .alreadyRan => "simulation already ran; create a new Simulation to change parameters"
  | .notRun => "simulation has not run yet"
  | .alreadyFlushed => "statistics were already flushed"
  | .unwritable path fault => s!"{path}: {fault.message}"

inductive Section
  | options
  | cpu
  | coprocessor
  | synthetic
  deriving DecidableEq, Repr

def Section.name : Section → String
  | options => "program_options"
  | cpu => "cpu"
  | coprocessor => "co_proc"
  | synthetic => "synthetic"

namespace Session

def start : Session :=
  .building []

def exchanged (value : Json.Value) : Except SessionError Json.Value :=
  match value.canonical? with
  | some value => .ok value
  | none => .error (.configuration .document)

/-- Starts from a configuration, which has to be readable. One that is no object is checked, but
    none of its settings are kept. -/
def ofConfig (document : Json.Value) : Except SessionError Session := do
  let document ← exchanged document
  match Config.ofValue? document, document with
  | none, _ => .error (.configuration .document)
  | some _, .object settings => .ok (.building settings)
  | some _, _ => .ok start

def settings : Session → Except SessionError (List (Json.Text × Json.Value))
  | building settings => .ok settings
  | finished _ | flushed => .error .alreadyRan

def members (settings : List (Json.Text × Json.Value)) (name : String) : List (Json.Text × Json.Value) :=
  match settings.lookup (some name) with
  | some (.object members) => members
  | _ => []

def extend (session : Session) (target : Section) (new : List (Json.Text × Json.Value)) :
    Except SessionError Session := do
  let settings ← session.settings
  let merged := Json.putAll new (members settings target.name)
  return .building (Json.put (some target.name) (.object merged) settings)

def setOption (session : Session) (key : String) (value : Json.Value) : Except SessionError Session := do
  session.extend .options [(some key, ← exchanged value)]

def setStatisticLevel (session : Session) (level : Nat) : Except SessionError Session := do
  return .building (Json.put (some "statistic_load_level") (.nat level) (← session.settings))

def merge (session : Session) (target : Section) (parameters : Json.Value) :
    Except SessionError Session := do
  match ← exchanged parameters with
  | .object new => session.extend target new
  | _ => .error (.notSection target.name)

def readable : Option Config → Except SessionError Config
  | some config => .ok config
  | none => .error (.configuration .document)

def launch (environment : Environment) (config : Config) : Except SessionError (Session × Summary) := do
  let sim ← (Simulator.ofConfig environment config).mapError .configuration
  let (sim, result) := sim.run
  let summary ← result.mapError .unregistered
  return (.finished sim, summary)

def run (session : Session) (environment : Environment) : Except SessionError (Session × Summary) := do
  let config ← readable (Config.ofValue? (.object (← session.settings)))
  launch environment config

def readFormat (name : String) : Except SessionError StatisticFormat :=
  let lower := String.ofList (Text.lower name.toList)
  match StatisticFormat.ofName? lower with
  | some format => .ok format
  | none => .error (.unknownFormat lower)

def statistics (session : Session) (format : String) : Except SessionError (Session × String) := do
  let format ← readFormat format
  match session with
  | building _ => .error .notRun
  | finished sim => return (.flushed, sim.statistics format)
  | flushed => .error .alreadyFlushed

/-- Takes the statistics and writes them to a file. They are gone even if that fails. -/
def writeStatistics (session : Session) (files : Files) (path format : String) :
    Session × Files × Except SessionError Unit :=
  match session.statistics format with
  | .error error => (session, files, .error error)
  | .ok (session, text) =>
    match files.write path text with
    | .error fault => (session, files, .error (.unwritable path fault))
    | .ok files => (session, files, .ok ())

end Session

def Summary.text (summary : Summary) : String :=
  s!"RunSummary(end_tick={summary.endTick}, stop_reason='{summary.reason.name}', events={summary.events})"

end CoreTiming
