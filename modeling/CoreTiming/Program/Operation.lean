import CoreTiming.Text.Numeral

namespace CoreTiming

structure Offload where
  instruction : Nat
  cycles : Nat
  payload : List UInt8
  deriving DecidableEq, Repr

inductive Operation
  | compute (cycles : Nat)
  | load (address : Nat)
  | store (address : Nat)
  | offload (work : Offload)
  | wait
  | halt
  deriving DecidableEq, Repr

def Operation.text : Operation → String
  | .compute cycles => s!"compute {cycles}"
  | .load address => s!"load {Numeral.hex address}"
  | .store address => s!"store {Numeral.hex address}"
  | .offload work => s!"offload {work.instruction} {work.cycles}"
  | .wait => "wait"
  | .halt => "halt"

end CoreTiming
