import CoreTiming.Config.Platform
import CoreTiming.Files
import CoreTiming.Log
import CoreTiming.Program.Workload

namespace CoreTiming

namespace Program

/-- Keeps the seeds of streams apart from those of latencies. -/
def seedSalt : UInt64 := 0xD1B54A32D192ED03

def workloadSeed (seed core : Nat) : Nat :=
  ((UInt64.ofNat seed ^^^ seedSalt) + UInt64.ofNat core).toNat

def isBlank (text : String) : Bool :=
  (Text.trim text.toList).isEmpty

/-- A name in the environment counts unless it is blank. -/
def resolve (environment : Environment) (configured : Option String) : Option String :=
  match environment.program.filter (!isBlank ·) with
  | some path => some path
  | none => configured

def load (files : Files) (path : String) : Except ConfigError (List Operation) := do
  let text ← (files.read path).mapError (.unreadableProgram path)
  (Trace.parse text).mapError (.malformedProgram path)

def loadedLine (path : String) (operations : Nat) : Log.Line where
  severity := .info
  message := "program loaded"
  fields := [⟨"path", path, true⟩, .ofNat "ops" operations]

def synthetic (config : Config) (platform : Platform) (core : CoreSpec) : Workload :=
  .synthetic (.start config.synthetic.mix
    (min (config.synthetic.addressSpan.getD platform.memorySize) platform.memorySize)
    (workloadSeed platform.seed core.id) platform.coprocessor.isSome)

def workloads (environment : Environment) (config : Config) (platform : Platform) :
    Except ConfigError (List Workload × List Log.Line) :=
  match resolve environment config.cpu.program with
  | some path => do
    let operations ← load environment.files path
    return (platform.cores.map fun _ => .listed operations, [loadedLine path operations.length])
  | none => .ok (platform.cores.map (synthetic config platform), [])

end Program

end CoreTiming
