import CoreTiming.Core.Potential
import CoreTiming.Simulator

namespace CoreTiming

namespace Simulator

def work (sim : Simulator) : Nat :=
  sumOver (fun station => station.core.work) sim.stations

def potential (sim : Simulator) : Nat :=
  operationWeight * sim.work + sim.timeline.queue.weight

theorem sumOver_set {stations : List Station} {index : Nat} {station : Station}
    (h : stations[index]? = some station) (new : Station) :
    sumOver (fun station => station.core.work) (stations.set index new) + station.core.work =
      sumOver (fun station => station.core.work) stations + new.core.work := by
  induction stations generalizing index with
  | nil => simp at h
  | cons first rest ih =>
    cases index with
    | zero =>
      simp only [List.getElem?_cons_zero, Option.some.injEq] at h
      subst h
      simp only [List.set_cons_zero, sumOver_cons]
      omega
    | succ index =>
      have := ih (by simpa using h)
      simp only [List.set_cons_succ, sumOver_cons]
      omega

theorem potential_turn_lt {sim : Simulator} {index : Nat} {station : Station}
    (h : sim.stations[index]? = some station) (event : Event) :
    (sim.turn sim.now index station (·.deliver event)).1.potential <
      sim.potential + event.weight sim.now := by
  have delivered := Turn.potential_deliver_lt {
    now := sim.now
    memory := ⟨sim.platform.memorySize⟩
    latency := sim.latency
    core := station.core
    coprocessor := station.coprocessor } event
  simp only [turn]
  generalize Turn.deliver _ event = done at delivered
  have replaced := sumOver_set h ⟨done.core, done.coprocessor⟩
  have scheduled := Queue.weight_foldl_schedule_le done.effects.posts sim.timeline.queue
  have product := congrArg (operationWeight * ·) replaced
  simp only [Nat.mul_add] at product
  have nothing : sumOver (fun post => post.2.weight post.1) Effects.none.posts = 0 := rfl
  simp only [Turn.potential, Effects.weight] at delivered
  simp only [potential, work, Timeline.queue_apply]
  omega

theorem potential_dispatch_lt {sim after : Simulator} {event : Event}
    (h : sim.dispatch event = (after, none)) :
    after.potential < sim.potential + event.weight sim.now := by
  unfold dispatch at h
  split at h
  · cases h
  · rename_i station found
    split at h
    · have := potential_turn_lt found event
      rw [h] at this
      exact this
    · cases h

theorem pop?_of_due? {sim : Simulator} {due : Pending × Queue} (h : sim.due? = some due) :
    sim.timeline.queue.pop? = some due := by
  unfold due? at h
  split at h
  · cases h
  · rename_i next found
    split at h
    · cases h
    · exact found.trans h

theorem potential_dispatch_due_lt {sim after : Simulator} {due : Pending × Queue}
    (h : sim.due? = some due)
    (dispatched : (sim.withQueue due.2).dispatch due.1.event = (after, none)) :
    after.potential < sim.potential := by
  have weights := Queue.weight_pop? (pop?_of_due? h)
  have lower := potential_dispatch_lt dispatched
  have time : (sim.withQueue due.2).now = due.1.tick := weights.2
  have own : due.1.weight = due.1.event.weight due.1.tick := rfl
  rw [time] at lower
  simp only [potential, work, withQueue] at lower ⊢
  omega

def advance (sim : Simulator) : Simulator × Option Nat :=
  match _ : sim.due? with
  | none => (sim, none)
  | some due =>
    match _ : (sim.withQueue due.2).dispatch due.1.event with
    | (next, none) => next.advance
    | (next, some core) => (next, some core)
termination_by sim.potential
decreasing_by exact potential_dispatch_due_lt (by assumption) (by assumption)

theorem advance_eq (sim : Simulator) :
    sim.advance = match sim.step? with
      | none => (sim, none)
      | some (next, none) => next.advance
      | some (next, some core) => (next, some core) := by
  rw [advance, step?]
  cases sim.due? with
  | none => rfl
  | some due =>
    simp only [Option.map_some]
    split <;> simp_all

def startLine (sim : Simulator) : Log.Line where
  severity := .info
  message := "simulation started"
  fields := [.ofNat "cores" sim.stations.length,
    ⟨"coprocessors", toString sim.platform.coprocessor.isSome, false⟩,
    ⟨"stop", sim.platform.stop.name, false⟩]

def endLine (sim : Simulator) (summary : Summary) : Log.Line where
  severity := .info
  message := "simulation finished"
  fields := [.ofNat "end_tick" summary.endTick, ⟨"stop_reason", summary.reason.name, false⟩,
    .ofNat "events" summary.events, .ofNat "abandoned" sim.timeline.queue.pending.length]

/-- Runs to the end. A run that has ended stays as it is. -/
def run (sim : Simulator) : Simulator × Except Nat Summary :=
  match sim.summary with
  | some summary => (sim, .ok summary)
  | none =>
    let (ended, unregistered) := (sim.apply (.line sim.startLine)).advance
    match unregistered with
    | some core => (ended, .error core)
    | none =>
      let summary := ended.ending
      ({ ended with summary := some summary }.apply (.line (ended.endLine summary)), .ok summary)

end Simulator

end CoreTiming
