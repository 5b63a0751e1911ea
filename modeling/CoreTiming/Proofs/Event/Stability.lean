import CoreTiming.Proofs.Event.Order
import Mathlib.Data.List.Induction
import Mathlib.Data.List.Nodup
import Mathlib.Tactic.Common

namespace CoreTiming

/-- What may be taken before what: nothing that is later, and of one tick and one priority nothing that
    was scheduled later. -/
def Pending.InTurn (x y : Pending) : Prop :=
  x.tick ≤ y.tick ∧
    (x.tick = y.tick → x.event.priority = y.event.priority → x.sequence < y.sequence)

namespace Queue

theorem inTurn_of_before {x y : Pending} (before : x.Before y) : x.InTurn y := by
  unfold Pending.Before at before
  unfold Pending.InTurn
  omega

theorem perm_place (new : Pending) (list : List Pending) : (place new list).Perm (new :: list) := by
  induction list with
  | nil => exact .refl _
  | cons next rest ih =>
    unfold place
    split
    · exact .refl _
    · exact (ih.cons next).trans (.swap ..)

inductive Request
  | schedule (tick : Nat) (event : Event)
  | scheduleIn (delay : Nat) (event : Event)
  | pop
  deriving DecidableEq, Repr

/-- A queue with what its user knows: the events scheduled so far, each with the tick that it was
    scheduled for and its number, and the events taken so far, first one first. -/
structure Usage where
  queue : Queue := {}
  scheduled : List Pending := []
  taken : List Pending := []

namespace Usage

def schedule (usage : Usage) (tick : Nat) (event : Event) : Usage :=
  { usage with
    queue := usage.queue.schedule tick event
    scheduled := usage.scheduled ++ [⟨max tick usage.queue.now, usage.scheduled.length, event⟩] }

def serve (usage : Usage) : Request → Usage
  | .schedule tick event => usage.schedule tick event
  | .scheduleIn delay event =>
    { usage.schedule (addUpToHorizon usage.queue.now delay) event with
      queue := usage.queue.scheduleIn delay event }
  | .pop =>
    match usage.queue.pop? with
    | none => usage
    | some (next, queue) => { usage with queue := queue, taken := usage.taken ++ [next] }

def run (requests : List Request) : Usage :=
  requests.foldl serve {}

structure Kept (usage : Usage) : Prop where
  ordered : usage.queue.Ordered
  next : usage.queue.nextSequence = usage.scheduled.length
  numbered : usage.scheduled.map Pending.sequence = List.range usage.scheduled.length
  conserved : (usage.taken ++ usage.queue.pending).Perm usage.scheduled
  dispatched : usage.queue.dispatched = usage.taken.length
  now : usage.queue.now = (usage.taken.getLast?.map Pending.tick).getD 0
  past : ∀ pending ∈ usage.taken, pending.tick ≤ usage.queue.now
  inTurn : (usage.taken ++ usage.queue.pending).Pairwise Pending.InTurn

namespace Kept

variable {usage : Usage}

theorem sequence_lt (kept : usage.Kept) {pending : Pending} (member : pending ∈ usage.scheduled) :
    pending.sequence < usage.scheduled.length := by
  rw [← List.mem_range, ← kept.numbered]
  exact List.mem_map_of_mem member

theorem mem_scheduled_of_taken (kept : usage.Kept) {pending : Pending} (member : pending ∈ usage.taken) :
    pending ∈ usage.scheduled :=
  kept.conserved.subset (List.mem_append_left _ member)

theorem schedule (kept : usage.Kept) (tick : Nat) (event : Event) : (usage.schedule tick event).Kept := by
  have placed := perm_place ⟨max tick usage.queue.now, usage.scheduled.length, event⟩ usage.queue.pending
  have ordered := kept.ordered.schedule tick event
  refine {
    ordered := ordered
    next := by simp [Usage.schedule, Queue.schedule, kept.next]
    numbered := by simp [Usage.schedule, kept.numbered, List.range_succ]
    conserved := ?_
    dispatched := kept.dispatched
    now := kept.now
    past := kept.past
    inTurn := ?_ }
  · simp only [Usage.schedule, Queue.schedule, kept.next]
    exact (placed.append_left _).trans (List.perm_middle.trans
      ((kept.conserved.cons _).trans (List.perm_append_singleton ..).symm))
  · obtain ⟨taken, -, across⟩ := List.pairwise_append.mp kept.inTurn
    refine List.pairwise_append.mpr ⟨taken, ordered.sorted.imp inTurn_of_before, ?_⟩
    intro earlier member pending among
    rcases mem_schedule.mp among with rfl | among
    · have past := kept.past earlier member
      have number := kept.sequence_lt (kept.mem_scheduled_of_taken member)
      refine ⟨Nat.le_trans past (Nat.le_max_right ..), fun _ _ => ?_⟩
      rw [kept.next]
      exact number
    · exact across earlier member pending among

theorem pop (kept : usage.Kept) {next : Pending} {after : Queue}
    (popped : usage.queue.pop? = some (next, after)) :
    ({ usage with queue := after, taken := usage.taken ++ [next] } : Usage).Kept := by
  obtain ⟨same, now, sequence⟩ := pop?_eq_some popped
  obtain ⟨ordered, later⟩ := kept.ordered.pop? popped
  have counted := dispatched_of_pop? popped
  -- An event that is taken goes from the front of the one list to the end of the other.
  have together : usage.taken ++ [next] ++ after.pending = usage.taken ++ usage.queue.pending := by
    rw [same, List.append_assoc, List.singleton_append]
  exact {
    ordered := ordered
    next := sequence.trans kept.next
    numbered := kept.numbered
    conserved := together ▸ kept.conserved
    dispatched := by simp [counted, kept.dispatched]
    now := by simp [now]
    past := by
      intro pending member
      rcases List.mem_append.mp member with member | single
      · exact Nat.le_trans (kept.past pending member) later
      · rw [List.mem_singleton.mp single]
        exact Nat.le_of_eq now.symm
    inTurn := together ▸ kept.inTurn }

theorem serve (kept : usage.Kept) (request : Request) : (usage.serve request).Kept := by
  cases request with
  | schedule tick event => exact kept.schedule tick event
  | scheduleIn delay event => exact kept.schedule (addUpToHorizon usage.queue.now delay) event
  | pop =>
    cases popped : usage.queue.pop? with
    | none =>
      simp only [Usage.serve, popped]
      exact kept
    | some found =>
      simp only [Usage.serve, popped]
      exact kept.pop popped

end Kept

theorem run_concat (requests : List Request) (request : Request) :
    run (requests ++ [request]) = (run requests).serve request := by
  simp only [run, List.foldl_append, List.foldl_cons, List.foldl_nil]

theorem kept_run (requests : List Request) : (run requests).Kept := by
  induction requests using List.reverseRecOn with
  | nil => exact {
      ordered := ordered_empty
      next := rfl
      numbered := rfl
      conserved := .nil
      dispatched := rfl
      now := rfl
      past := by simp [run]
      inTurn := .nil }
  | append_singleton requests request ih =>
    rw [run_concat]
    exact ih.serve request

/-- The third event is scheduled for a tick that has passed, and the last one takes its turn before the
    second one, which has its tick. -/
example : (run [.schedule 5 (.coreEdge 1), .schedule 7 (.coprocessorEdge 0), .pop, .schedule 2 (.coreEdge 1),
    .pop, .scheduleIn 2 (.coreEdge 0), .pop, .pop, .pop]).taken =
      [⟨5, 0, .coreEdge 1⟩, ⟨5, 2, .coreEdge 1⟩, ⟨7, 3, .coreEdge 0⟩, ⟨7, 1, .coprocessorEdge 0⟩] := by
  decide

end Usage

end Queue

end CoreTiming
