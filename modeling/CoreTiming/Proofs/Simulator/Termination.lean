import CoreTiming.Proofs.Simulator.Runs

namespace CoreTiming

/-- Each operation weighs more than the events it can lead to, and each core starts with one edge. -/
def eventBound (workloads : List Workload) : Nat :=
  sumOver (fun workload => 2 * operationWeight * workload.remaining + (2 * horizon + 2)) workloads

namespace Queue

theorem dispatched_scheduleAll (queue : Queue) (posts : List (Nat × Event)) :
    (queue.scheduleAll posts).dispatched = queue.dispatched := by
  induction posts generalizing queue with
  | nil => rfl
  | cons post posts ih => exact ih _

end Queue

namespace Simulator

variable {notes : Nat → Notes} {sim next : Simulator} {platform : Platform} {first : Simulator}

def dispatched (sim : Simulator) : Nat :=
  sim.timeline.queue.dispatched

theorem dispatched_settle (sim : Simulator) (index : Nat) (done : Turn) :
    (sim.settle index done).dispatched = sim.dispatched :=
  Queue.dispatched_scheduleAll ..

theorem Sound.dispatched_step (sound : sim.Sound notes) {failed : Option Nat}
    (stepped : sim.step? = some (next, failed)) : next.dispatched = sim.dispatched + 1 := by
  obtain ⟨pending, queue, station, done, popped, -, -, -, rfl, -⟩ := sound.step?_eq_some stepped
  rw [dispatched_settle]
  exact Queue.dispatched_of_pop? popped

theorem potential_step (stepped : sim.step? = some (next, none)) : next.potential < sim.potential := by
  obtain ⟨due, found, dispatched⟩ := Option.map_eq_some_iff.mp stepped
  exact potential_dispatch_due_lt found dispatched

theorem Run.dispatched_add_potential_le (prepared : first.Prepared platform) (run : Run first notes sim) :
    sim.dispatched + sim.potential ≤ first.dispatched + first.potential := by
  induction run with
  | start => exact Nat.le_refl _
  | next run stepped ih =>
    have counted := (run.sound prepared).dispatched_step stepped
    have lower := potential_step stepped
    omega

theorem Run.eq_states (prepared : first.Prepared platform) (fresh : first.dispatched = 0)
    (run : Run first notes sim) : first.states sim.dispatched = (notes, sim) := by
  induction run with
  | start =>
    have none_yet : (first.apply (.line first.startLine)).dispatched = 0 := fresh
    rw [none_yet]
    rfl
  | next run stepped ih =>
    rw [(run.sound prepared).dispatched_step stepped, states, ih]
    simp only [stepped]

theorem states_of_elapsed {events : Nat} (elapsed : (first.states events).2.step? = none) (more : Nat) :
    first.states (events + more) = first.states events := by
  induction more with
  | zero => rfl
  | succ more ih =>
    rw [← Nat.add_assoc, states, ih]
    simp only [elapsed]

theorem dispatched_states_le (prepared : first.Prepared platform) (fresh : first.dispatched = 0)
    (events : Nat) : (first.states events).2.dispatched ≤ events := by
  induction events with
  | zero => exact Nat.le_of_eq fresh
  | succ events ih =>
    unfold states
    split
    · rename_i next stepped
      have counted := ((run_states first events).sound prepared).dispatched_step stepped
      simp only
      omega
    · exact Nat.le_succ_of_le ih

theorem potential_register_le (sim : Simulator) (core : CoreSpec) (workload : Workload) :
    (sim.register core workload).potential ≤
      sim.potential + (2 * operationWeight * workload.remaining + (2 * horizon + 2)) := by
  generalize new : (⟨.ofSpec core workload, sim.platform.coprocessor.map (.ofSpec core.id)⟩ : Station) =
    station
  obtain ⟨line, registered⟩ := @register_eq sim core workload station new.symm
  have asked := Turn.potential_requestFirstEdge_le (station.turn 0 sim.memory sim.latency)
  rw [registered]
  generalize (station.turn 0 sim.memory sim.latency).requestFirstEdge = done at asked
  have replaced := sumOver_set (sim.getElem?_enroll station) ⟨done.core, done.coprocessor⟩
  have enrolled : sumOver (fun station => station.core.work) (sim.enroll station).stations =
      sim.work + station.core.work := sumOver_append ..
  have first_work : station.core.work = 2 * workload.remaining := by
    rw [← new]
    rfl
  have scheduled : (sim.timeline.queue.scheduleAll done.effects.posts).weight ≤
      sim.timeline.queue.weight + done.effects.weight := Queue.weight_foldl_schedule_le ..
  have product := congrArg (operationWeight * ·) replaced
  have nothing : (station.turn 0 sim.memory sim.latency).effects.weight = 0 := rfl
  have own : (station.turn 0 sim.memory sim.latency).core = station.core := rfl
  show operationWeight * sumOver (fun station => station.core.work)
      ((sim.enroll station).stations.set sim.stations.length ⟨done.core, done.coprocessor⟩) +
    (sim.timeline.queue.scheduleAll done.effects.posts).weight ≤ _
  simp only [enrolled, Nat.mul_add] at product
  have twice : operationWeight * (2 * workload.remaining) = 2 * operationWeight * workload.remaining := by
    rw [Nat.mul_left_comm, Nat.mul_assoc]
  simp only [Turn.potential, nothing, own, first_work, twice] at asked
  unfold potential
  omega

theorem potential_foldl_register_le (cores : List (CoreSpec × Workload)) (sim : Simulator) :
    (cores.foldl (fun sim core => sim.register core.1 core.2) sim).potential ≤
      sim.potential + eventBound (cores.map Prod.snd) := by
  induction cores generalizing sim with
  | nil => exact Nat.le_refl _
  | cons core cores ih =>
    have first := potential_register_le sim core.1 core.2
    have rest := ih (sim.register core.1 core.2)
    simp only [List.foldl_cons, List.map_cons, eventBound, sumOver_cons] at rest ⊢
    omega

theorem dispatched_register (sim : Simulator) (core : CoreSpec) (workload : Workload) :
    (sim.register core workload).dispatched = sim.dispatched := by
  generalize new : (⟨.ofSpec core workload, sim.platform.coprocessor.map (.ofSpec core.id)⟩ : Station) =
    station
  obtain ⟨line, registered⟩ := @register_eq sim core workload station new.symm
  rw [registered]
  exact dispatched_settle (sim.enroll station) sim.stations.length
    (station.turn 0 sim.memory sim.latency).requestFirstEdge

theorem dispatched_foldl_register (cores : List (CoreSpec × Workload)) (sim : Simulator) :
    (cores.foldl (fun sim core => sim.register core.1 core.2) sim).dispatched = sim.dispatched := by
  induction cores generalizing sim with
  | nil => rfl
  | cons core cores ih => exact (ih _).trans (dispatched_register ..)

theorem potential_le_of_create {workloads : List Workload} (created : create platform workloads = .ok first) :
    first.dispatched = 0 ∧ first.potential ≤ eventBound workloads := by
  unfold create at created
  split at created
  · cases created
  · rename_i equal
    cases created
    have listed : (platform.cores.zip workloads).map Prod.snd = workloads :=
      List.map_snd_zip (Nat.le_of_eq (Decidable.not_not.mp equal))
    have bound := potential_foldl_register_le (platform.cores.zip workloads) (ofStations platform [])
    rw [listed] at bound
    exact ⟨dispatched_foldl_register .., Nat.le_trans bound (Nat.le_of_eq (Nat.zero_add _))⟩

theorem pending_of_elapsed {sim : Simulator} (elapsed : sim.step? = none) :
    sim.ending.reason = .drained ∧ sim.timeline.queue.pending = [] ∨
      sim.ending.reason = .stopCondition ∧ ∃ limit next rest, sim.platform.stop = .atTick limit ∧
        sim.timeline.queue.pending = next :: rest ∧ limit < next.tick := by
  have due : sim.due? = none := Option.map_eq_none_iff.mp elapsed
  unfold due? at due
  cases popped : sim.timeline.queue.pop? with
  | none =>
    have empty := Queue.pop?_eq_none popped
    refine .inl ⟨?_, empty⟩
    unfold ending
    rw [empty]
    rfl
  | some outcome =>
    obtain ⟨next, queue⟩ := outcome
    have first := (Queue.pop?_eq_some popped).1
    rw [popped] at due
    cases stop : sim.platform.stop with
    | drain =>
      rw [stop] at due
      cases due
    | atTick limit =>
      rw [stop] at due
      refine .inr ⟨?_, limit, next, queue.pending, rfl, first, ?_⟩
      · unfold ending
        rw [first]
        rfl
      · by_contra within
        have included : (StopCondition.atTick limit).excludes next.tick = false := decide_eq_false within
        simp only [included, Bool.false_eq_true, if_false] at due
        cases due

/-- A run leaves its loop after as many events as it reports and no earlier, which are bounded by the
    workloads. It has drained, or the next event comes after the stop. -/
theorem every_run_ends {config : Config} {platform : Platform} (built : config.build = .ok platform)
    {workloads : List Workload} {first : Simulator} (created : create platform workloads = .ok first) :
    ∃ last summary, first.run = (last, .ok summary) ∧ summary.events ≤ eventBound workloads ∧
      (first.states summary.events).2.step? = none ∧
      (∀ events < summary.events, (first.states events).2.step? ≠ none) ∧
      (summary.reason = .drained ∧ last.timeline.queue.pending = [] ∨
        summary.reason = .stopCondition ∧ ∃ limit next rest, platform.stop = .atTick limit ∧
          last.timeline.queue.pending = next :: rest ∧ limit < next.tick) := by
  have prepared := prepared_of_create (Config.sound_of_build built) created
  obtain ⟨fresh, bound⟩ := potential_le_of_create created
  obtain ⟨notes, ended, reached, elapsed, same⟩ := prepared.exists_run
  have spent := reached.dispatched_add_potential_le prepared
  have numbered := reached.eq_states prepared fresh
  refine ⟨_, _, same, ?bounded, ?left, ?earlier, ?reason⟩
  case bounded =>
    show ended.dispatched ≤ _
    omega
  case left =>
    show (first.states ended.dispatched).2.step? = none
    rw [numbered]
    exact elapsed
  -- a state with no step would be the last one, and the run counts as many events as it takes
  case earlier =>
    intro events early stuck
    obtain ⟨more, sum⟩ := Nat.exists_eq_add_of_lt early
    have later : first.states ended.dispatched = first.states events := by
      show first.states ended.timeline.queue.dispatched = _
      rw [show ended.timeline.queue.dispatched = events + (more + 1) from sum]
      exact states_of_elapsed stuck (more + 1)
    have count := dispatched_states_le prepared fresh events
    rw [← later, numbered] at count
    exact Nat.not_le.mpr early count
  case reason =>
    rw [← reached.platform_eq prepared]
    exact pending_of_elapsed elapsed

theorem twoClocks_ends : ∃ platform first last summary, twoClocks.build = .ok platform ∧
    create platform [twoClocksWorkload] = .ok first ∧ first.run = (last, .ok summary) ∧
      (first.states summary.events).2.step? = none ∧ summary.reason = .drained := by
  obtain ⟨platform, built, -, stop, first, created, -⟩ := exists_twoClocks
  obtain ⟨last, summary, ran, -, left, -, ⟨drained, -⟩ | ⟨-, limit, -, -, stopped, -⟩⟩ :=
    every_run_ends built created
  · exact ⟨platform, first, last, summary, built, created, ran, left, drained⟩
  · cases stop.symm.trans stopped

end Simulator

end CoreTiming
