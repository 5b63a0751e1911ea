import CoreTiming.Program.Synthetic

namespace CoreTiming

inductive FaultPolicy
  | halt
  | continue
  deriving DecidableEq, Repr

inductive IssueMode
  | single
  | multi
  deriving DecidableEq, Repr

structure ProgramOptions where
  timebase : String := "1ps"
  stopAtCycle : String := "0s"
  seed : Nat := 0x5245565F53454544
  deriving DecidableEq, Repr

structure CpuSettings where
  verbose : Nat := 0
  cores : Nat := 1
  clock : String := "1GHz"
  memorySize : Nat := 0x40000000
  machine : String := "[CORES:RV64G]"
  startAddress : String := "[CORES:0x00000000]"
  memoryCost : Option String := none
  memoryCostTable : Option String := none
  coprocessor : Bool := false
  program : Option String := none
  faultPolicy : FaultPolicy := .halt
  deriving DecidableEq, Repr

structure CoprocessorSettings where
  clock : String := "1GHz"
  verbose : Nat := 0
  queueDepth : Nat := 8
  issue : IssueMode := .single
  issueWidth : Nat := 1
  deriving DecidableEq, Repr

structure SyntheticSettings where
  operations : Nat := 10000
  loadWeight : Nat := 6
  storeWeight : Nat := 3
  computeWeight : Nat := 1
  offloadWeight : Nat := 0
  longestCompute : Nat := 4
  offloadCycles : Nat := 4
  addressSpan : Option Nat := none
  deriving DecidableEq, Repr

def SyntheticSettings.mix (settings : SyntheticSettings) : Mix where
  operations := settings.operations
  load := settings.loadWeight
  store := settings.storeWeight
  compute := settings.computeWeight
  offload := settings.offloadWeight
  longestCompute := settings.longestCompute
  offloadCycles := settings.offloadCycles

structure Config where
  options : ProgramOptions := {}
  statisticLevel : Nat := 1
  cpu : CpuSettings := {}
  coprocessor : CoprocessorSettings := {}
  synthetic : SyntheticSettings := {}
  deriving DecidableEq, Repr

end CoreTiming
