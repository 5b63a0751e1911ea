import CoreTiming.Core.Turn

namespace CoreTiming.Turn

def countAccess (turn : Turn) (kind : AccessKind) (latency : Nat) : Turn :=
  turn.count fun counters => match kind with
    | .load => { counters with loads := counters.loads + 1, latency := counters.latency + latency }
    | .store => { counters with stores := counters.stores + 1, latency := counters.latency + latency }

/-- Posts the response to a memory request after its latency. An address outside memory is a fault
    and draws no latency. The answer says whether a response will come. -/
def request (turn : Turn) (address : Nat) (kind : AccessKind) : Turn × Bool :=
  let id := turn.core.id
  match turn.memory.check id address kind with
  | .error fault => (turn.raise fault, false)
  | .ok () =>
    match turn.latency.draw? id with
    | none => ({ turn with unregistered := some id }, false)
    | some (latency, model) =>
      let drawn := { turn with latency := model }.countAccess kind latency
      (drawn.emit (.record turn.core.name .memoryLatency latency ++
        .post (turn.core.clock.ticksAfter turn.now latency) (.response id address kind turn.now)), true)

def load (turn : Turn) (address : Nat) : Turn :=
  let requested := turn.request address .load
  if requested.2 then (requested.1.setPhase .waitMemory).keepPolling else requested.1

def store (turn : Turn) (address : Nat) : Turn :=
  let requested := turn.request address .store
  if requested.2 then
    let core := requested.1.core.retire
    (requested.1.setCore { core with storesInFlight := core.storesInFlight + 1 }).requestNextEdge
  else requested.1

def offload (turn : Turn) (work : Offload) : Turn :=
  match turn.coprocessor with
  | none => turn.raise (.noCoprocessor turn.core.id work.instruction)
  | some unit =>
    let (outcome, unit, effects) := unit.submit turn.now work
    let turn := { turn with coprocessor := some unit }.emit effects
    match outcome with
    | .ok handle => (turn.setCore (turn.core.accept handle)).requestNextEdge
    | .error refusal =>
      ((turn.setCore (turn.core.keep work)).note (0 < turn.core.verbose) .debug "offload stalled"
        [.ofNat "inst_id" work.instruction, ⟨"err", refusal.message, false⟩]).requestNextEdge

/-- A burst lasts at least one cycle, and ends at the last edge within the horizon if not before. -/
def compute (turn : Turn) (cycle cycles : Nat) : Turn :=
  let clock := turn.core.clock
  let last := min (cycle + max cycles 1) clock.lastCycle
  (turn.setPhase (.busy last)).sleepUntil (clock.tickOfCycle last)

def wait (turn : Turn) : Turn :=
  let turn := turn.retire
  (if turn.core.outstanding.isEmpty then turn else turn.setPhase (.waitOffloads false)).requestNextEdge

def execute (turn : Turn) (cycle : Nat) (operation : Operation) : Turn :=
  let turn := turn.note turn.core.logsOperations .trace "issue"
    [.ofNat "pc" turn.core.pc, ⟨"op", operation.text, false⟩]
  match operation with
  | .compute cycles => turn.compute cycle cycles
  | .load address => turn.load address
  | .store address => turn.store address
  | .offload work => turn.offload work
  | .wait => turn.wait
  | .halt => turn.retire.drainThenHalt

/-- Executes the refused offload or else the next operation. The stream ends like a halt. -/
def issue (turn : Turn) (cycle : Nat) : Turn :=
  match turn.core.refused with
  | some work => (turn.setCore { turn.core with refused := none }).execute cycle (.offload work)
  | none =>
    match turn.core.workload.next? with
    | some (operation, workload) =>
      (turn.setCore (turn.core.advance workload)).execute cycle operation
    | none => turn.drainThenHalt

end CoreTiming.Turn
