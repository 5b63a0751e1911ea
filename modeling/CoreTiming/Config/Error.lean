import CoreTiming.Files
import CoreTiming.Isa
import CoreTiming.Program.Trace
import CoreTiming.Time.Units

namespace CoreTiming

inductive SettingFault
  | notEnclosed (text : String)
  | fieldCount (entry : String) (found expected : Nat)
  | notCoreIndex (selector : String)
  | notUnsigned (text : String)
  | noCores
  | noMemory
  | noQueue
  | noIssueWidth
  | workloadCount (supplied cores : Nat)
  deriving DecidableEq, Repr

def SettingFault.message : SettingFault → String
  | .notEnclosed text => s!"`{text}` must be enclosed in brackets"
  | .fieldCount entry found expected => s!"entry `{entry}` has {found} fields, expected {expected}"
  | .notCoreIndex selector => s!"`{selector}` is not a core index"
  | .notUnsigned text => s!"`{text}` is not an unsigned integer"
  | .noCores => "at least one core is required"
  | .noMemory => "memory size must be non-zero"
  | .noQueue => "queue depth must be at least 1"
  | .noIssueWidth => "issue width must be at least 1"
  | .workloadCount supplied cores => s!"{supplied} workloads supplied for {cores} cores"

inductive ConfigError
  | malformed (setting : String) (fault : SettingFault)
  | coreOutOfRange (setting : String) (core cores : Nat)
  | missingCore (setting : String) (core : Nat)
  | invertedRange (core least most : Nat)
  | zeroLatency (core : Nat)
  | tableOutOfRange (core value least most : Nat)
  | isa (name : String) (fault : IsaFault)
  | startTooWide (core address : Nat) (target : Isa)
  | startOutsideMemory (core address memorySize : Nat)
  | quantity (setting text : String) (fault : UnitFault)
  | unreadableProgram (path : String) (fault : FileFault)
  | malformedProgram (path : String) (error : TraceError)
  | document
  deriving DecidableEq, Repr

def ConfigError.message : ConfigError → String
  | .malformed setting fault => s!"parameter `{setting}`: {fault.message}"
  | .coreOutOfRange setting core cores =>
    s!"parameter `{setting}` references core {core}, but numCores is {cores}"
  | .missingCore setting core => s!"parameter `{setting}` has no entry for core {core}"
  | .invertedRange core least most => s!"core {core}: memCost minimum {least} exceeds maximum {most}"
  | .zeroLatency core => s!"core {core}: memCost minimum latency must be at least 1 cycle"
  | .tableOutOfRange core value least most =>
    s!"core {core}: memCostTable entry {value} outside memCost range [{least}, {most}]"
  | .isa name fault => s!"invalid ISA string `{name}`: {fault.message}"
  | .startTooWide core start target =>
    s!"core {core}: start address {Numeral.hex start} does not fit in {target.name}"
  | .startOutsideMemory core start memorySize =>
    s!"core {core}: start address {Numeral.hex start} outside memory of {Numeral.hex memorySize} bytes"
  | .quantity setting text fault => s!"invalid {setting} `{text}`: {fault.message}"
  | .unreadableProgram path fault => s!"program `{path}`: {fault.message}"
  | .malformedProgram path error => s!"program `{path}`: {error.message}"
  | .document => "invalid configuration document:"

end CoreTiming
