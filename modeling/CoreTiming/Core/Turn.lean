import CoreTiming.Core

namespace CoreTiming

structure Turn where
  now : Nat
  memory : MemoryMap
  latency : LatencyModel
  core : Core
  coprocessor : Option Coprocessor
  effects : Effects := .none
  /-- The core that asked for a latency and has none. -/
  unregistered : Option Nat := none

namespace Turn

def setCore (turn : Turn) (core : Core) : Turn :=
  { turn with core := core }

def setPhase (turn : Turn) (phase : Phase) : Turn :=
  turn.setCore { turn.core with phase := phase }

def count (turn : Turn) (change : CoreCounters → CoreCounters) : Turn :=
  turn.setCore (turn.core.count change)

def retire (turn : Turn) : Turn :=
  turn.setCore turn.core.retire

def emit (turn : Turn) (effects : Effects) : Turn :=
  { turn with effects := turn.effects ++ effects }

def field (turn : Turn) (fields : List Log.Field) : List Log.Field :=
  ⟨"core", turn.core.name, false⟩ :: .ofNat "now" turn.now :: fields

def note (turn : Turn) (condition : Bool) (severity : Log.Severity) (message : String)
    (fields : List Log.Field) : Turn :=
  turn.emit (.lineIf condition {
    severity := severity
    message := message
    fields := turn.field fields })

def halt (turn : Turn) : Turn :=
  if turn.core.isHalted then turn
  else
    let halted := turn.setCore { turn.core with
      phase := .halted
      haltedAt := some turn.now
      refused := none }
    halted.note (0 < turn.core.verbose) .info "core halted" [
      .ofNat "retired" turn.core.counters.retired,
      .ofNat "abandoned_offloads" turn.core.outstanding.length]

def haltAtHorizon (turn : Turn) : Turn :=
  (turn.note true .warn "no clock edge left before the tick horizon"
    [.ofNat "pc" turn.core.pc]).halt

def requestEdge (turn : Turn) (tick : Nat) : Turn :=
  if turn.core.nextEdge.any (· ≤ tick) then turn
  else
    (turn.setCore { turn.core with nextEdge := some tick }).emit (.post tick (.coreEdge turn.core.id))

def requestEdgeOrHalt (turn : Turn) : Option Nat → Turn
  | some tick => turn.requestEdge tick
  | none => turn.haltAtHorizon

def requestNextEdge (turn : Turn) : Turn :=
  turn.requestEdgeOrHalt (turn.core.clock.edgeAfter? turn.now)

def requestFirstEdge (turn : Turn) : Turn :=
  turn.requestEdgeOrHalt (turn.core.clock.edgeAtOrAfter? turn.now)

def keepPolling (turn : Turn) : Turn :=
  if turn.core.outstanding.isEmpty then turn else turn.requestNextEdge

/-- Asks for the edge at `resume`, or for the next one if there are offloads to be asked for. -/
def sleepUntil (turn : Turn) (resume : Nat) : Turn :=
  match turn.core.clock.edgeAfter? turn.now with
  | some edge => turn.requestEdge (if turn.core.outstanding.isEmpty then resume else min edge resume)
  | none => turn.requestEdge resume

def drainThenHalt (turn : Turn) : Turn :=
  if turn.core.outstanding.isEmpty then turn.halt
  else (turn.setPhase (.waitOffloads true)).requestNextEdge

/-- A fault reaches the core as an event of the present tick. -/
def raise (turn : Turn) (fault : Fault) : Turn :=
  (turn.setPhase .waitFault).emit (.post turn.now (.fault turn.core.id fault))

end Turn

end CoreTiming
