import CoreTiming.Core.Issue

namespace CoreTiming.Turn

def poll (turn : Turn) (handle : Nat) : Turn :=
  match turn.coprocessor.bind (·.poll? handle turn.now) with
  | none => turn
  | some (result, unit, effects) =>
    let turn := { turn with coprocessor := some unit }.emit effects
    let observed := (turn.setCore (turn.core.observe result)).emit
      (.record turn.core.name .offloadLatency (turn.now - result.submittedAt))
    observed.note turn.core.logsOperations .trace "offload observed" [
      ⟨"handle", handleName result.handle, false⟩, .ofNat "inst_id" result.instruction,
      .ofNat "completed_at" result.completedAt]

def pollAll (turn : Turn) : Turn :=
  turn.core.outstanding.foldl poll turn

def proceed (turn : Turn) : Turn :=
  let cycle := turn.core.clock.cycleAt turn.now
  match turn.core.phase with
  | .halted | .waitFault => turn
  | .waitMemory => turn.keepPolling
  | .busy last =>
    let resume := turn.core.clock.tickOfCycle last
    if turn.now < resume then turn.sleepUntil resume
    else (turn.retire.setPhase .running).issue cycle
  | .waitOffloads thenHalt =>
    if !turn.core.outstanding.isEmpty then turn.keepPolling
    else if thenHalt then turn.halt
    else (turn.setPhase .running).issue cycle
  | .running => turn.issue cycle

/-- A clock edge of the core. One that was asked for before an earlier one does nothing. -/
def coreEdge (turn : Turn) : Turn :=
  if turn.core.nextEdge ≠ some turn.now then turn
  else
    let turn := turn.setCore { turn.core with nextEdge := none }
    if turn.core.isHalted then turn else turn.pollAll.proceed

def coprocessorEdge (turn : Turn) : Turn :=
  match turn.coprocessor with
  | none => turn
  | some unit =>
    let advanced := unit.edge turn.now
    { turn with coprocessor := some advanced.1 }.emit advanced.2

def response (turn : Turn) (address : Nat) (kind : AccessKind) (issuedAt : Nat) : Turn :=
  let turn := turn.note turn.core.logsOperations .trace "memory response" [
    .ofNat "address" address, ⟨"kind", kind.name, false⟩,
    .ofNat "latency_ticks" (turn.now - issuedAt)]
  match kind with
  | .store => turn.setCore { turn.core with storesInFlight := turn.core.storesInFlight - 1 }
  | .load =>
    if turn.core.phase = .waitMemory then (turn.retire.setPhase .running).requestFirstEdge else turn

def policyName : FaultPolicy → String
  | .halt => "Halt"
  | .continue => "Continue"

def fault (turn : Turn) (fault : Fault) : Turn :=
  let counted := turn.count fun counters => { counters with faults := counters.faults + 1 }
  let noted := counted.note true .warn fault.message [
    .ofNat "pc" turn.core.pc, ⟨"policy", policyName turn.core.faultPolicy, false⟩]
  match turn.core.faultPolicy with
  | .halt => noted.halt
  | .continue => (noted.setPhase .running).requestNextEdge

def deliver (turn : Turn) : Event → Turn
  | .coreEdge _ => turn.coreEdge
  | .coprocessorEdge _ => turn.coprocessorEdge
  | .response _ address kind issuedAt => turn.response address kind issuedAt
  | .fault _ fault => turn.fault fault

end CoreTiming.Turn
