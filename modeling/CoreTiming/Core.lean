import CoreTiming.Coprocessor
import CoreTiming.Memory.Latency
import CoreTiming.Program.Workload

namespace CoreTiming

inductive Phase
  | running
  /-- Computing up to the edge of a cycle. -/
  | busy (lastCycle : Nat)
  | waitMemory
  | waitFault
  /-- Waiting for all offloads, to go on or to halt. -/
  | waitOffloads (thenHalt : Bool)
  | halted
  deriving DecidableEq, Repr

structure CoreCounters where
  retired : Nat := 0
  loads : Nat := 0
  stores : Nat := 0
  faults : Nat := 0
  /-- The sum of all latencies drawn. It stands for a word of 64 bits, which it equals below `2 ^ 64`. -/
  latency : Nat := 0
  submitted : Nat := 0
  completed : Nat := 0
  stalls : Nat := 0
  deriving DecidableEq, Repr

structure Core where
  id : Nat
  isa : Isa
  /-- Counts the operations taken, from the start address. -/
  pc : Nat
  clock : Clock
  verbose : Nat
  faultPolicy : FaultPolicy
  workload : Workload
  phase : Phase := .running
  refused : Option Offload := none
  /-- Handles of the offloads that have not been seen to complete, oldest first. -/
  outstanding : List Nat := []
  completions : List OffloadResult := []
  storesInFlight : Nat := 0
  nextEdge : Option Nat := none
  haltedAt : Option Nat := none
  counters : CoreCounters := {}
  deriving Repr

namespace Statistic

def cycles : Statistic := ⟨"cycles", "cycles", summaryLevel⟩
def operationsRetired : Statistic := ⟨"instructions_retired", "count", summaryLevel⟩
def faults : Statistic := ⟨"faults", "count", summaryLevel⟩
def loads : Statistic := ⟨"loads", "count", memoryLevel⟩
def stores : Statistic := ⟨"stores", "count", memoryLevel⟩
def totalLatency : Statistic := ⟨"mem_latency_total", "cycles", memoryLevel⟩
def offloadsSubmitted : Statistic := ⟨"offloads_submitted", "count", detailLevel⟩
def offloadsCompleted : Statistic := ⟨"offloads_completed", "count", detailLevel⟩
def backpressureStalls : Statistic := ⟨"backpressure_stalls", "count", detailLevel⟩
def memoryLatency : Statistic := ⟨"mem_latency", "cycles", sampleLevel⟩
def offloadLatency : Statistic := ⟨"offload_latency", "ticks", sampleLevel⟩

end Statistic

namespace Core

def ofSpec (spec : CoreSpec) (workload : Workload) : Core where
  id := spec.id
  isa := spec.isa
  pc := spec.startAddress
  clock := spec.clock
  verbose := spec.verbose
  faultPolicy := spec.faultPolicy
  workload := workload

def name (core : Core) : String :=
  s!"cpu.{coreName core.id}"

def isHalted (core : Core) : Bool :=
  core.phase = .halted

def operationVerbosity : Nat := 2

def logsOperations (core : Core) : Bool :=
  operationVerbosity ≤ core.verbose

def operationBytes : Nat := 4

/-- The program counter is a register, so it wraps around at its width. -/
def advance (core : Core) (workload : Workload) : Core :=
  { core with
    workload := workload
    pc := (core.pc + operationBytes) % Nat.pow 2 core.isa.width.bits }

def count (core : Core) (change : CoreCounters → CoreCounters) : Core :=
  { core with counters := change core.counters }

def retire (core : Core) : Core :=
  core.count fun counters => { counters with retired := counters.retired + 1 }

def accept (core : Core) (handle : Nat) : Core :=
  let core := core.retire.count fun counters => { counters with submitted := counters.submitted + 1 }
  { core with outstanding := core.outstanding ++ [handle] }

def keep (core : Core) (work : Offload) : Core :=
  let core := core.count fun counters => { counters with stalls := counters.stalls + 1 }
  { core with refused := some work }

def observe (core : Core) (result : OffloadResult) : Core :=
  let core := core.count fun counters => { counters with completed := counters.completed + 1 }
  { core with
    outstanding := core.outstanding.erase result.handle
    completions := core.completions ++ [result] }

def report (core : Core) (endTick : Nat) : List Record :=
  let counters := core.counters
  [⟨core.name, .cycles, core.clock.cycleAt (core.haltedAt.getD endTick)⟩,
    ⟨core.name, .operationsRetired, counters.retired⟩,
    ⟨core.name, .faults, counters.faults⟩,
    ⟨core.name, .loads, counters.loads⟩,
    ⟨core.name, .stores, counters.stores⟩,
    ⟨core.name, .totalLatency, counters.latency⟩,
    ⟨core.name, .offloadsSubmitted, counters.submitted⟩,
    ⟨core.name, .offloadsCompleted, counters.completed⟩,
    ⟨core.name, .backpressureStalls, counters.stalls⟩]

end Core

end CoreTiming
