import CoreTiming.Event
import CoreTiming.Time.Clock

namespace CoreTiming

structure Pending where
  tick : Nat
  sequence : Nat
  event : Event
  deriving DecidableEq, Repr

def Pending.Before (x y : Pending) : Prop :=
  x.tick < y.tick ∨ x.tick = y.tick ∧
    (x.event.priority < y.event.priority ∨
      x.event.priority = y.event.priority ∧ x.sequence < y.sequence)

instance (x y : Pending) : Decidable (x.Before y) :=
  inferInstanceAs (Decidable (_ ∨ _))

structure Queue where
  pending : List Pending := []
  now : Nat := 0
  nextSequence : Nat := 0
  dispatched : Nat := 0
  deriving DecidableEq, Repr

namespace Queue

def place (new : Pending) : List Pending → List Pending
  | [] => [new]
  | next :: rest => if new.Before next then new :: next :: rest else next :: place new rest

/-- A tick that has passed counts as the present one. -/
def schedule (queue : Queue) (tick : Nat) (event : Event) : Queue :=
  { queue with
    pending := place ⟨max tick queue.now, queue.nextSequence, event⟩ queue.pending
    nextSequence := queue.nextSequence + 1 }

def scheduleIn (queue : Queue) (delay : Nat) (event : Event) : Queue :=
  queue.schedule (addUpToHorizon queue.now delay) event

def nextTick? (queue : Queue) : Option Nat :=
  queue.pending.head?.map Pending.tick

def pop? (queue : Queue) : Option (Pending × Queue) :=
  match queue.pending with
  | [] => none
  | next :: rest =>
    some (next, { queue with
      pending := rest
      now := next.tick
      dispatched := queue.dispatched + 1 })

end Queue

end CoreTiming
