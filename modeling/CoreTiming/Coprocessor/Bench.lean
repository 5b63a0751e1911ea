import CoreTiming.Coprocessor.Weight

namespace CoreTiming

structure Bench where
  unit : Coprocessor
  timeline : Timeline

namespace Bench

def now (bench : Bench) : Nat :=
  bench.timeline.queue.now

def submit (bench : Bench) (work : Offload) : Except Backpressure Nat × Bench :=
  let (outcome, unit, effects) := bench.unit.submit bench.now work
  (outcome, ⟨unit, bench.timeline.apply effects⟩)

def poll? (bench : Bench) (handle now : Nat) : Option (OffloadResult × Bench) :=
  (bench.unit.poll? handle now).map fun (result, unit, effects) =>
    (result, ⟨unit, bench.timeline.apply effects⟩)

def edge (bench : Bench) : Bench :=
  let advanced := bench.unit.edge bench.now
  ⟨advanced.1, bench.timeline.apply advanced.2⟩

def deliver (bench : Bench) : Event → Bench
  | .coprocessorEdge _ => bench.edge
  | _ => bench

def next? (bench : Bench) : Option (Pending × Bench) :=
  bench.timeline.queue.pop?.map fun (next, queue) =>
    (next, ({ bench with timeline := { bench.timeline with queue := queue } } : Bench).deliver next.event)

def report (bench : Bench) : Bench :=
  { bench with timeline := bench.timeline.apply { records := bench.unit.report } }

theorem weight_deliver_lt (bench : Bench) (event : Event) :
    (bench.deliver event).timeline.queue.weight <
      bench.timeline.queue.weight + event.weight bench.now := by
  have positive : 0 < event.weight bench.now := by
    cases event <;> simp only [Event.weight, Event.rank] <;> omega
  unfold deliver
  split
  · have given := Coprocessor.weight_edge_le bench.unit bench.now
    have scheduled := Queue.weight_foldl_schedule_le
      (bench.unit.edge bench.now).2.posts bench.timeline.queue
    simp only [Effects.weight] at given
    simp only [edge, Timeline.queue_apply, Event.weight, Event.rank]
    omega
  · omega

theorem weight_next?_lt {bench after : Bench} {next : Pending} (h : bench.next? = some (next, after)) :
    after.timeline.queue.weight < bench.timeline.queue.weight := by
  obtain ⟨⟨_, queue⟩, found, same⟩ := Option.map_eq_some_iff.1 h
  cases same
  have weights := Queue.weight_pop? found
  have lower := weight_deliver_lt { bench with timeline := { bench.timeline with queue := queue } }
    next.event
  have time : ({ bench with timeline := { bench.timeline with queue := queue } } : Bench).now =
      next.tick := weights.2
  rw [time] at lower
  simp only [Pending.weight] at weights
  simp only at lower ⊢
  omega

def run (bench : Bench) : Nat × Bench :=
  match _ : bench.next? with
  | none => (0, bench)
  | some (_, after) =>
    let rest := after.run
    (rest.1 + 1, rest.2)
termination_by bench.timeline.queue.weight
decreasing_by exact weight_next?_lt (by assumption)

end Bench

end CoreTiming
