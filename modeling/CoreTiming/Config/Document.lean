import CoreTiming.Config.Basic
import CoreTiming.Config.Error
import CoreTiming.Json.Fields
import CoreTiming.Json.Reader

namespace CoreTiming

open Json (Value field)

def FaultPolicy.choices : List (String × FaultPolicy) :=
  [("halt", .halt), ("continue", .continue)]

def IssueMode.choices : List (String × IssueMode) :=
  [("single", .single), ("multi", .multi)]

def ProgramOptions.ofValue? (value : Value) : Option ProgramOptions := do
  let fields ← value.fields? ["timebase", "stopAtCycle", "seed"]
  let default : ProgramOptions := {}
  return {
    timebase := ← field fields "timebase" default.timebase Value.asText?
    stopAtCycle := ← field fields "stopAtCycle" default.stopAtCycle Value.asTime?
    seed := ← field fields "seed" default.seed (Value.asWord? 64) }

def CpuSettings.ofValue? (value : Value) : Option CpuSettings := do
  let fields ← value.fields? ["verbose", "numCores", "clock", "memSize", "machine", "startAddr",
    "memCost", "memCostTable", "enableCoProc", "program", "faultPolicy"]
  let default : CpuSettings := {}
  let optionalText := Value.asOption? Value.asText?
  return {
    verbose := ← field fields "verbose" default.verbose (Value.asWord? 32)
    cores := ← field fields "numCores" default.cores (Value.asWord? 64)
    clock := ← field fields "clock" default.clock Value.asText?
    memorySize := ← field fields "memSize" default.memorySize (Value.asWord? 64)
    machine := ← field fields "machine" default.machine Value.asText?
    startAddress := ← field fields "startAddr" default.startAddress Value.asText?
    memoryCost := ← field fields "memCost" default.memoryCost optionalText
    memoryCostTable := ← field fields "memCostTable" default.memoryCostTable optionalText
    coprocessor := ← field fields "enableCoProc" default.coprocessor Value.asFlag?
    program := ← field fields "program" default.program optionalText
    faultPolicy := ← field fields "faultPolicy" default.faultPolicy (Value.asChoice? FaultPolicy.choices) }

def CoprocessorSettings.ofValue? (value : Value) : Option CoprocessorSettings := do
  let fields ← value.fields? ["clock", "verbose", "queueDepth", "issue", "issueWidth"]
  let default : CoprocessorSettings := {}
  return {
    clock := ← field fields "clock" default.clock Value.asText?
    verbose := ← field fields "verbose" default.verbose (Value.asWord? 32)
    queueDepth := ← field fields "queueDepth" default.queueDepth (Value.asWord? 64)
    issue := ← field fields "issue" default.issue (Value.asChoice? IssueMode.choices)
    issueWidth := ← field fields "issueWidth" default.issueWidth (Value.asWord? 64) }

def SyntheticSettings.ofValue? (value : Value) : Option SyntheticSettings := do
  let fields ← value.fields? ["ops", "loadWeight", "storeWeight", "computeWeight", "offloadWeight",
    "maxCompute", "offloadCycles", "addressSpan"]
  let default : SyntheticSettings := {}
  return {
    operations := ← field fields "ops" default.operations (Value.asWord? 64)
    loadWeight := ← field fields "loadWeight" default.loadWeight (Value.asWord? 32)
    storeWeight := ← field fields "storeWeight" default.storeWeight (Value.asWord? 32)
    computeWeight := ← field fields "computeWeight" default.computeWeight (Value.asWord? 32)
    offloadWeight := ← field fields "offloadWeight" default.offloadWeight (Value.asWord? 32)
    longestCompute := ← field fields "maxCompute" default.longestCompute (Value.asWord? 64)
    offloadCycles := ← field fields "offloadCycles" default.offloadCycles (Value.asWord? 64)
    addressSpan := ← field fields "addressSpan" default.addressSpan (Value.asOption? (Value.asWord? 64)) }

namespace Config

def ofValue? (value : Value) : Option Config := do
  let fields ← value.fields? ["program_options", "statistic_load_level", "cpu", "co_proc", "synthetic"]
  let default : Config := {}
  return {
    options := ← field fields "program_options" default.options ProgramOptions.ofValue?
    statisticLevel := ← field fields "statistic_load_level" default.statisticLevel (Value.asWord? 8)
    cpu := ← field fields "cpu" default.cpu CpuSettings.ofValue?
    coprocessor := ← field fields "co_proc" default.coprocessor CoprocessorSettings.ofValue?
    synthetic := ← field fields "synthetic" default.synthetic SyntheticSettings.ofValue? }

def parse (document : String) : Except ConfigError Config :=
  match (Json.read? document).bind ofValue? with
  | some config => .ok config
  | none => .error .document

end Config

end CoreTiming
