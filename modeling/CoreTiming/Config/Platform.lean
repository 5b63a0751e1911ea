import CoreTiming.Config.Basic
import CoreTiming.Config.PerCore

namespace CoreTiming

/-- The latencies of memory requests, in cycles: from `least` to `most`. -/
structure LatencyRange where
  least : Nat
  most : Nat
  deriving DecidableEq, Repr

namespace LatencyRange

def check (core least most : Nat) : Except ConfigError LatencyRange :=
  if least = 0 then .error (.zeroLatency core)
  else if most < least then .error (.invertedRange core least most)
  else .ok ⟨least, most⟩

def contains (range : LatencyRange) (latency : Nat) : Bool :=
  range.least ≤ latency && latency ≤ range.most

end LatencyRange

/-- When a run ends: once nothing is pending, or before the first event later than a tick. -/
inductive StopCondition
  | drain
  | atTick (tick : Nat)
  deriving DecidableEq, Repr

structure CoreSpec where
  id : Nat
  isa : Isa
  startAddress : Nat
  cost : LatencyRange
  /-- Latencies used in turn instead of random ones. -/
  costTable : Option (List Nat)
  clock : Clock
  verbose : Nat
  faultPolicy : FaultPolicy
  deriving DecidableEq, Repr

structure CoprocessorSpec where
  clock : Clock
  queueDepth : Nat
  issue : IssueMode
  issueWidth : Nat
  verbose : Nat
  deriving DecidableEq, Repr

structure Platform where
  /-- Femtoseconds per tick. -/
  timebase : Float
  stop : StopCondition
  statisticLevel : Nat
  seed : Nat
  memorySize : Nat
  cores : List CoreSpec
  coprocessor : Option CoprocessorSpec

namespace Config

def quantity {α : Type} (setting text : String) (result : Except UnitFault α) : Except ConfigError α :=
  result.mapError (.quantity setting text)

def parseClock (text : String) (timebase : Float) : Except ConfigError Clock := do
  return .ofPeriod (← quantity "clock" text (parsePeriod text timebase))

def readIsa (selection : Selection) : Except ConfigError Isa :=
  let name := selection.fields.headD ""
  (Isa.parse name).mapError (.isa name)

def readStart (selection : Selection) : Except ConfigError Nat :=
  readUnsigned "startAddr" (selection.fields.headD "")

def readCost (selection : Selection) : Except ConfigError LatencyRange := do
  let least ← readUnsigned "memCost" (selection.fields.headD "")
  let most ← readUnsigned "memCost" (selection.fields.getD 1 "")
  LatencyRange.check selection.core least most

def readTable (selection : Selection) : Except ConfigError (Option (List Nat)) := do
  let cells := Text.splitAt '|' (selection.fields.headD "").toList
  return some (← cells.mapM fun cell => readUnsigned "memCostTable" (String.ofList cell))

/-- A core starts at an address that its registers hold and that is memory, and its table keeps to
    its range. -/
def checkCore (memorySize : Nat) (core : CoreSpec) : Except ConfigError CoreSpec :=
  if !core.isa.fits core.startAddress then .error (.startTooWide core.id core.startAddress core.isa)
  else if memorySize ≤ core.startAddress then
    .error (.startOutsideMemory core.id core.startAddress memorySize)
  else
    match (core.costTable.getD []).find? (!core.cost.contains ·) with
    | some value => .error (.tableOutOfRange core.id value core.cost.least core.cost.most)
    | none => .ok core

def assemble (cpu : CpuSettings) (clock : Clock) (id : Nat) :
    List Isa → List Nat → List LatencyRange → List (Option (List Nat)) → List CoreSpec
  | isa :: isas, start :: starts, cost :: costs, table :: tables =>
    { id := id, isa := isa, startAddress := start, cost := cost, costTable := table, clock := clock
      verbose := cpu.verbose, faultPolicy := cpu.faultPolicy } ::
        assemble cpu clock (id + 1) isas starts costs tables
  | _, _, _, _ => []

def buildCores (cpu : CpuSettings) (clock : Clock) : Except ConfigError (List CoreSpec) := do
  let isas ← PerCore.read "machine" cpu.machine cpu.cores 1 readIsa
  let starts ← PerCore.read "startAddr" cpu.startAddress cpu.cores 1 readStart
  let costs ← match cpu.memoryCost with
    | none => .error (.missingCore "memCost" 0)
    | some raw => PerCore.read "memCost" raw cpu.cores 2 readCost
  let tables ← match cpu.memoryCostTable with
    | none => .ok (List.replicate cpu.cores none)
    | some raw => PerCore.read "memCostTable" raw cpu.cores 1 readTable
  (assemble cpu clock 0 isas starts costs tables).mapM (checkCore cpu.memorySize)

/-- A coprocessor that issues one offload at a time has width one, whatever its setting. -/
def buildCoprocessor (settings : CoprocessorSettings) (timebase : Float) :
    Except ConfigError CoprocessorSpec := do
  if settings.queueDepth = 0 then .error (.malformed "queueDepth" .noQueue)
  if settings.issue = .multi && settings.issueWidth = 0 then
    .error (.malformed "issueWidth" .noIssueWidth)
  return {
    clock := ← parseClock settings.clock timebase
    queueDepth := settings.queueDepth
    issue := settings.issue
    issueWidth := if settings.issue = .single then 1 else settings.issueWidth
    verbose := settings.verbose }

/-- Tick zero stands for no stop at all. -/
def stopCondition (tick : Nat) : StopCondition :=
  if tick = 0 then .drain else .atTick tick

def build (config : Config) : Except ConfigError Platform := do
  let cpu := config.cpu
  if cpu.cores = 0 then .error (.malformed "numCores" .noCores)
  if cpu.memorySize = 0 then .error (.malformed "memSize" .noMemory)
  let options := config.options
  let timebase ← quantity "timebase" options.timebase (parseTimebase options.timebase)
  let stop ← quantity "stopAtCycle" options.stopAtCycle (parseTime options.stopAtCycle timebase)
  let clock ← parseClock cpu.clock timebase
  let cores ← buildCores cpu clock
  let coprocessor ←
    if cpu.coprocessor then some <$> buildCoprocessor config.coprocessor timebase else .ok none
  return {
    timebase := timebase
    stop := stopCondition stop
    statisticLevel := config.statisticLevel
    seed := options.seed
    memorySize := cpu.memorySize
    cores := cores
    coprocessor := coprocessor }

end Config

end CoreTiming
