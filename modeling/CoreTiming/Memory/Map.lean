import CoreTiming.Text.Numeral

namespace CoreTiming

inductive AccessKind
  | load
  | store
  deriving DecidableEq, Repr

def AccessKind.name : AccessKind → String
  | .load => "load"
  | .store => "store"

def coreName (core : Nat) : String :=
  s!"core{core}"

inductive Fault
  | address (core address : Nat) (kind : AccessKind) (memorySize : Nat)
  | noCoprocessor (core instruction : Nat)
  deriving DecidableEq, Repr

def Fault.message : Fault → String
  | .address core target kind memorySize =>
    s!"{coreName core}: {kind.name} at {Numeral.hex target} outside memory of {Numeral.hex memorySize} bytes"
  | .noCoprocessor core instruction =>
    s!"{coreName core}: offload {instruction} issued with no coprocessor attached"

structure MemoryMap where
  size : Nat
  deriving DecidableEq, Repr

namespace MemoryMap

def contains (memory : MemoryMap) (address : Nat) : Bool :=
  address < memory.size

def check (memory : MemoryMap) (core address : Nat) (kind : AccessKind) : Except Fault Unit :=
  if memory.contains address then .ok () else .error (.address core address kind memory.size)

end MemoryMap

end CoreTiming
