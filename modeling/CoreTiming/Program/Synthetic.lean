import CoreTiming.Program.Operation
import CoreTiming.Random.Range

namespace CoreTiming

structure Mix where
  operations : Nat
  load : Nat
  store : Nat
  compute : Nat
  offload : Nat
  longestCompute : Nat
  offloadCycles : Nat
  deriving DecidableEq, Repr

structure Synthetic where
  generator : Random.Generator
  mix : Mix
  span : Nat
  remaining : Nat
  nextInstruction : Nat
  deriving DecidableEq, Repr

namespace Synthetic

inductive Kind
  | load
  | store
  | compute
  | offload
  deriving DecidableEq, Repr

def alignment : Nat := 8

/-- A burst is at least one cycle long, and there are no offloads without a coprocessor. -/
def start (mix : Mix) (span seed : Nat) (offloads : Bool) : Synthetic where
  generator := .ofSeed seed
  mix := { mix with
    longestCompute := max mix.longestCompute 1
    offload := if offloads then mix.offload else 0 }
  span := span
  remaining := mix.operations
  nextInstruction := 0

def weights (mix : Mix) : List (Nat × Kind) :=
  [(mix.load, .load), (mix.store, .store), (mix.compute, .compute), (mix.offload, .offload)]

/-- The kind that owns a position when the weights are laid end to end. -/
def kindAt (position : Nat) : List (Nat × Kind) → Kind
  | [] => .load
  | (weight, kind) :: rest => if position < weight then kind else kindAt (position - weight) rest

/-- A span without room for an aligned access gives address zero and draws nothing. -/
def address (s : Synthetic) : Nat × Synthetic :=
  let slots := s.span / alignment
  if slots = 0 then (0, s)
  else
    let draw := s.generator.below 64 slots
    (draw.1 * alignment, { s with generator := draw.2 })

def operation (s : Synthetic) : Kind → Operation × Synthetic
  | .load => (.load s.address.1, s.address.2)
  | .store => (.store s.address.1, s.address.2)
  | .compute =>
    let draw := s.generator.between 64 1 s.mix.longestCompute
    (.compute draw.1, { s with generator := draw.2 })
  | .offload =>
    (.offload ⟨s.nextInstruction, s.mix.offloadCycles, []⟩,
      { s with nextInstruction := (s.nextInstruction + 1) % 0x100000000 })

/-- Without any weight every operation is a burst of one cycle, and nothing is drawn. -/
def next? (s : Synthetic) : Option (Operation × Synthetic) :=
  if s.remaining = 0 then none
  else
    let s := { s with remaining := s.remaining - 1 }
    let total := s.mix.load + s.mix.store + s.mix.compute + s.mix.offload
    if total = 0 then some (.compute 1, s)
    else
      let draw := s.generator.below 32 total
      some ({ s with generator := draw.2 }.operation (kindAt draw.1 (weights s.mix)))

theorem remaining_address (s : Synthetic) : s.address.2.remaining = s.remaining := by
  simp only [address]
  split <;> rfl

theorem remaining_operation (s : Synthetic) (kind : Kind) :
    (s.operation kind).2.remaining = s.remaining := by
  cases kind <;> simp only [operation, remaining_address]

theorem remaining_next? {s s' : Synthetic} {op : Operation} (h : s.next? = some (op, s')) :
    s'.remaining + 1 = s.remaining := by
  unfold next? at h
  split at h
  · cases h
  · have shorter : s.remaining - 1 + 1 = s.remaining := by omega
    simp only at h
    split at h
    · cases h
      exact shorter
    · have := congrArg (fun r : Operation × Synthetic => r.2.remaining) (Option.some.inj h)
      simp only [remaining_operation] at this
      omega

end Synthetic

end CoreTiming
