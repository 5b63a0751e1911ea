import CoreTiming.Core.Delivery
import CoreTiming.Program.Loader
import CoreTiming.Statistics.Export

namespace CoreTiming

structure Station where
  core : Core
  coprocessor : Option Coprocessor
  deriving Repr

/-- Nobody is there for the edge of a coprocessor that does not exist. -/
def Station.receives (station : Station) : Event → Bool
  | .coprocessorEdge _ => station.coprocessor.isSome
  | _ => true

inductive StopReason
  | drained
  | stopCondition
  deriving DecidableEq, Repr

def StopReason.name : StopReason → String
  | drained => "drained"
  | stopCondition => "stop-condition"

def StopReason.description : StopReason → String
  | drained => "Drained"
  | stopCondition => "StopCondition"

structure Summary where
  /-- The stop tick, or the tick of the last event. -/
  endTick : Nat
  reason : StopReason
  events : Nat
  deriving DecidableEq, Repr

def Summary.description (summary : Summary) : String :=
  "RunSummary \x7b end_tick: " ++ toString summary.endTick ++ ", stop_reason: " ++
    summary.reason.description ++ ", events: " ++ toString summary.events ++ " \x7d"

structure Simulator where
  platform : Platform
  timeline : Timeline
  latency : LatencyModel
  stations : List Station
  summary : Option Summary := none

def unregisteredMessage (core : Nat) : String :=
  s!"{coreName core} is not registered with the simulator"

namespace StopCondition

def excludes : StopCondition → Nat → Bool
  | drain, _ => false
  | atTick limit, tick => limit < tick

def name : StopCondition → String
  | drain => "Drain"
  | atTick limit => s!"AtTick({limit})"

end StopCondition

namespace Simulator

def now (sim : Simulator) : Nat :=
  sim.timeline.queue.now

def memory (sim : Simulator) : MemoryMap :=
  ⟨sim.platform.memorySize⟩

def apply (sim : Simulator) (effects : Effects) : Simulator :=
  { sim with timeline := sim.timeline.apply effects }

def ofStations (platform : Platform) (stations : List Station) : Simulator where
  platform := platform
  timeline := { sink := { level := platform.statisticLevel } }
  latency := .ofSpecs platform.cores platform.seed
  stations := stations

/-- Lets one station take a turn, whose effects then take place. The answer names a core that asked
    for a latency without being registered. -/
def turn (sim : Simulator) (now index : Nat) (station : Station) (step : Turn → Turn) :
    Simulator × Option Nat :=
  let ⟨platform, timeline, latency, stations, summary⟩ := sim
  let done := step {
    now := now
    memory := ⟨platform.memorySize⟩
    latency := latency
    core := station.core
    coprocessor := station.coprocessor }
  ({ platform := platform
     timeline := timeline.apply done.effects
     latency := done.latency
     stations := stations.set index ⟨done.core, done.coprocessor⟩
     summary := summary },
    done.unregistered)

def start (sim : Simulator) (index tick : Nat) : Simulator :=
  match sim.stations[index]? with
  | none => sim
  | some station => (sim.turn tick index station Turn.requestFirstEdge).1

/-- Hands an event to a station, whichever core it names. -/
def give (sim : Simulator) (index : Nat) (event : Event) : Simulator × Option Nat :=
  match sim.stations[index]? with
  | none => (sim, some index)
  | some station => sim.turn sim.now index station (·.deliver event)

def dispatch (sim : Simulator) (event : Event) : Simulator × Option Nat :=
  match sim.stations[event.core]? with
  | none => (sim, some event.core)
  | some station =>
    if station.receives event then sim.turn sim.now event.core station (·.deliver event)
    else (sim, some event.core)

def due? (sim : Simulator) : Option (Pending × Queue) :=
  match sim.timeline.queue.pop? with
  | none => none
  | some due => if sim.platform.stop.excludes due.1.tick then none else some due

def withQueue (sim : Simulator) (queue : Queue) : Simulator :=
  let ⟨platform, ⟨_, sink, log⟩, latency, stations, summary⟩ := sim
  ⟨platform, ⟨queue, sink, log⟩, latency, stations, summary⟩

def step? (sim : Simulator) : Option (Simulator × Option Nat) :=
  sim.due?.map fun due => (sim.withQueue due.2).dispatch due.1.event

def ending (sim : Simulator) : Summary where
  endTick := match sim.platform.stop, sim.timeline.queue.pending with
    | .atTick limit, _ :: _ => limit
    | _, _ => sim.now
  reason := if sim.timeline.queue.pending.isEmpty then .drained else .stopCondition
  events := sim.timeline.queue.dispatched

def register (sim : Simulator) (spec : CoreSpec) (workload : Workload) : Simulator :=
  let station : Station :=
    ⟨.ofSpec spec workload, sim.platform.coprocessor.map (.ofSpec spec.id)⟩
  let registered : Log.Line := {
    severity := .debug
    message := "core registered"
    fields := [⟨"core", coreName spec.id, false⟩, ⟨"isa", spec.isa.name, false⟩,
      .ofNat "start" spec.startAddress] }
  ({ sim with stations := sim.stations ++ [station] }.start sim.stations.length 0).apply
    (.line registered)

def create (platform : Platform) (workloads : List Workload) : Except ConfigError Simulator :=
  if workloads.length ≠ platform.cores.length then
    .error (.malformed "program" (.workloadCount workloads.length platform.cores.length))
  else
    .ok ((platform.cores.zip workloads).foldl (fun sim core => sim.register core.1 core.2)
      (ofStations platform []))

def logBefore (sim : Simulator) (lines : List Log.Line) : Simulator :=
  { sim with timeline := { sim.timeline with log := lines.toArray ++ sim.timeline.log } }

def ofConfig (environment : Environment) (config : Config) : Except ConfigError Simulator := do
  let platform ← config.build
  let (workloads, lines) ← Program.workloads environment config platform
  return (← create platform workloads).logBefore lines

def reseed (sim : Simulator) (seed : Nat) : Simulator :=
  let reseeded := sim.latency.reseed seed
  { sim with latency := reseeded.1 }.apply { log := reseeded.2 }

def records (sim : Simulator) : Sink :=
  let endTick := match sim.summary with
    | some summary => summary.endTick
    | none => sim.now
  sim.stations.foldl (fun sink station =>
    (sink.addAll (station.core.report endTick)).addAll
      ((station.coprocessor.map Coprocessor.report).getD [])) sim.timeline.sink

def statistics (sim : Simulator) (format : StatisticFormat) : String :=
  sim.records.written format

def description (sim : Simulator) : String :=
  let summary := match sim.summary with
    | none => "None"
    | some summary => s!"Some({summary.description})"
  "Simulator \x7b now: " ++ toString sim.now ++ ", pending: " ++
    toString sim.timeline.queue.pending.length ++ ", cores: " ++ toString sim.stations.length ++
    ", summary: " ++ summary ++ ", .. \x7d"

end Simulator

end CoreTiming
