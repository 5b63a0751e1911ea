import CoreTiming.Memory.Map

namespace CoreTiming

inductive Event
  | coreEdge (core : Nat)
  | coprocessorEdge (core : Nat)
  | response (core address : Nat) (kind : AccessKind) (issuedAt : Nat)
  | fault (core : Nat) (fault : Fault)
  deriving DecidableEq, Repr

namespace Event

def core : Event → Nat
  | coreEdge core | coprocessorEdge core | response core .. | fault core _ => core

/-- Of the events of one tick those of lower cores come first, and a core comes before its
    coprocessor. -/
def priority : Event → Nat
  | coprocessorEdge core => 2 * core + 1
  | event => 2 * event.core

end Event

end CoreTiming
