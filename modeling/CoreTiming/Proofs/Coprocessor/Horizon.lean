import CoreTiming.Proofs.Coprocessor.Effects
import CoreTiming.Proofs.Coprocessor.Readiness
import CoreTiming.Proofs.Coprocessor.Timeliness

namespace CoreTiming

namespace Coprocessor

variable {submissions : List Submission} {unit : Coprocessor} {now : Nat}

theorem Consistent.mem_edge_of_started (consistent : unit.Consistent submissions) {job begun : Job}
    (waits : job ∈ unit.queue) (idle : job.finishCycle = none) (member : begun ∈ (unit.edge now).1.queue)
    (same : begun.handle = job.handle) (started : begun.isExecuting = true) :
    begun = { job with finishCycle := some (addUpToHorizon (unit.clock.cycleAt now) job.duration) } := by
  have distinct := (List.nodup_append.mp consistent.distinct).1
  have former : ∀ other ∈ unit.queue, other.handle = job.handle → other = job :=
    fun other queued named => List.inj_on_of_nodup_map distinct queued waits named
  by_cases due : unit.nextEdge = some now
  · rw [queue_edge due] at member
    rcases mem_start member with stays | ⟨waiting, stays, -, rfl⟩
    · have unmoved := former begun (List.mem_of_mem_filter stays) same
      rw [unmoved, Job.isExecuting, idle] at started
      cases started
    · rw [former waiting (List.mem_of_mem_filter stays) same]
  · rw [edge_of_ne due] at member
    rw [former begun member same, Job.isExecuting, idle] at started
    cases started

end Coprocessor

namespace Bench.Trial

variable {owner : Nat} {spec : CoprocessorSpec} {sink : Sink} {trial : Trial} {job : Job} {finish : Nat}

/-- A job executes until `finish`, or has ended then and left a result. -/
inductive Serves (spec : CoprocessorSpec) (trial : Trial) (job : Job) (finish : Nat) : Prop
  | executing (queued : job ∈ trial.bench.unit.queue)
  | ended (near : finish * spec.clock.period ≤ horizon) (result : OffloadResult)
      (done : result ∈ trial.bench.unit.done) (named : result.handle = job.handle)
      (ends : result.completedAt = finish * spec.clock.period)
  | returned (near : finish * spec.clock.period ≤ horizon) (result : OffloadResult)
      (taken : (job.handle, result) ∈ trial.returned)
      (ends : result.completedAt = finish * spec.clock.period)

theorem completedAt_result (kept : trial.Kept spec) (ends : job.finishCycle = some finish)
    (near : finish * spec.clock.period ≤ horizon) :
    (trial.bench.unit.result job).completedAt = finish * spec.clock.period := by
  show trial.bench.unit.clock.tickOfCycle (job.finishCycle.getD 0) = _
  rw [ends, kept.built.clock]
  exact Clock.tickOfCycle_of_le near

namespace Serves

theorem mono {after : Trial} (serves : trial.Serves spec job finish)
    (queue : trial.bench.unit.queue ⊆ after.bench.unit.queue)
    (done : trial.bench.unit.done ⊆ after.bench.unit.done) (returned : trial.returned ⊆ after.returned) :
    after.Serves spec job finish := by
  cases serves with
  | executing queued => exact .executing (queue queued)
  | ended near result kept named ends => exact .ended near result (done kept) named ends
  | returned near result taken ends => exact .returned near result (returned taken) ends

theorem edge (serves : trial.Serves spec job finish) (kept : trial.Kept spec)
    (timely : trial.bench.unit.Timely trial.bench.now) (ends : job.finishCycle = some finish) :
    (trial.act .edge).Serves spec job finish := by
  by_cases due : trial.bench.unit.nextEdge = some trial.bench.now
  · have done : trial.bench.unit.done ⊆ (trial.act .edge).bench.unit.done := by
      show _ ⊆ (trial.bench.unit.edge _).1.done
      rw [Coprocessor.done_edge due]
      exact List.subset_append_left ..
    cases serves with
    | executing queued =>
      by_cases finished : job.finishedBy (trial.bench.unit.clock.cycleAt trial.bench.now) = true
      · obtain ⟨_, same, reached⟩ := Coprocessor.finishedBy_cycleAt_iff.mp finished
        cases ends.symm.trans same
        rw [kept.built.clock] at reached
        have near := Nat.le_trans reached (timely.awaited _ due).1
        apply Serves.ended near (trial.bench.unit.result job)
        · show _ ∈ (trial.bench.unit.edge _).1.done
          rw [Coprocessor.done_edge due]
          exact List.mem_append_right _ (List.mem_map_of_mem (List.mem_filter.mpr ⟨queued, finished⟩))
        · rfl
        · exact completedAt_result kept ends near
      · apply Serves.executing
        show _ ∈ (trial.bench.unit.edge _).1.queue
        rw [Coprocessor.queue_edge due]
        apply Coprocessor.mem_start_of_executing
        · exact List.mem_filter.mpr ⟨queued, by simp [finished]⟩
        · rw [Job.isExecuting, ends]
          rfl
    | ended near result former named tick => exact .ended near result (done former) named tick
    | returned near result taken tick => exact .returned near result taken tick
  · have same : (trial.act .edge).bench.unit = trial.bench.unit := by
      show (trial.bench.unit.edge _).1 = _
      rw [Coprocessor.edge_of_ne due]
    apply serves.mono
    · rw [same]
      exact List.Subset.refl _
    · rw [same]
      exact List.Subset.refl _
    · exact List.Subset.refl _

theorem poll (serves : trial.Serves spec job finish) (kept : trial.Kept spec)
    (ends : job.finishCycle = some finish) (handle tick : Nat) :
    (trial.act (.poll handle tick)).Serves spec job finish := by
  obtain ⟨queued_distinct, done_distinct, -⟩ := List.nodup_append.mp kept.consistent.distinct
  cases polled : trial.bench.unit.poll? handle tick with
  | none =>
    rw [act_poll_of_none polled]
    exact serves
  | some found =>
    obtain ⟨result, unit, effects⟩ := found
    rw [act_poll polled]
    have last : (handle, result) ∈ trial.returned ++ [(handle, result)] := by simp
    cases serves with
    | returned near result taken tick =>
      exact .returned near result (List.mem_append_left _ taken) tick
    | executing queued =>
      obtain ⟨-, ⟨-, -, -, rfl⟩ | ⟨other, _, among, rfl, same, near, -, rfl, rfl⟩⟩ :=
        Coprocessor.poll?_eq_some polled
      · exact .executing queued
      · by_cases named : job.handle = other.handle
        · cases List.inj_on_of_nodup_map queued_distinct queued among named
          cases ends.symm.trans same
          rw [kept.built.clock] at near
          exact .returned near _ last (completedAt_result kept ends near)
        · exact .executing ((List.mem_eraseP_of_neg (by simpa using named)).mpr queued)
    | ended near other former named tick =>
      obtain ⟨-, ⟨among, rfl, -, rfl⟩ | ⟨_, _, -, -, -, -, -, -, rfl⟩⟩ :=
        Coprocessor.poll?_eq_some polled
      · by_cases same : other.handle = result.handle
        · cases List.inj_on_of_nodup_map done_distinct former among same
          rw [named] at last ⊢
          exact .returned near result last tick
        · exact .ended near other ((List.mem_eraseP_of_neg (by simpa using same)).mpr former) named tick
      · exact .ended near other former named tick

theorem submit (serves : trial.Serves spec job finish) (work : Offload) :
    (trial.act (.submit work)).Serves spec job finish := by
  by_cases full : trial.bench.unit.capacity ≤ trial.bench.unit.occupancy
  · simp only [act, submit_of_full full]
    exact serves.mono (List.Subset.refl _) (List.Subset.refl _) (List.Subset.refl _)
  · obtain ⟨edge, effects, submitted⟩ := submit_of_room full work
    simp only [act, submitted]
    exact serves.mono (List.subset_append_left ..) (List.Subset.refl _) (List.Subset.refl _)

theorem act (serves : trial.Serves spec job finish) (kept : trial.Kept spec)
    (timely : trial.bench.unit.Timely trial.bench.now) (ends : job.finishCycle = some finish)
    (action : Action) : (trial.act action).Serves spec job finish := by
  cases action with
  | submit work => exact serves.submit work
  | poll handle tick => exact serves.poll kept ends handle tick
  | edge => exact serves.edge kept timely ends
  | schedule tick event => exact serves.mono (List.Subset.refl _) (List.Subset.refl _) (List.Subset.refl _)
  | pop =>
    have same : trial.bench.pop.unit = trial.bench.unit := by
      unfold pop
      split <;> rfl
    apply serves.mono
    · show _ ⊆ trial.bench.pop.unit.queue
      rw [same]
      exact List.Subset.refl _
    · show _ ⊆ trial.bench.pop.unit.done
      rw [same]
      exact List.Subset.refl _
    · exact List.Subset.refl _

theorem run {actions : List Action} (serves : (run owner spec sink actions).Serves spec job finish)
    (ends : job.finishCycle = some finish) (later : List Action) :
    (Trial.run owner spec sink (actions ++ later)).Serves spec job finish := by
  induction later using List.reverseRecOn with
  | nil =>
    rw [List.append_nil]
    exact serves
  | append_singleton later action ih =>
    rw [← List.append_assoc, run_concat]
    exact ih.act (kept_run _) (timely_run _) ends action

theorem of_returned (serves : trial.Serves spec job finish) (kept : trial.Kept spec)
    {result : OffloadResult} (taken : (job.handle, result) ∈ trial.returned) :
    finish * spec.clock.period ≤ horizon ∧ result.completedAt = finish * spec.clock.period := by
  have once : (trial.returned.map Prod.fst ++ trial.bench.unit.held).Nodup := by
    rw [kept.places.nodup_iff, kept.consistent.numbered]
    exact List.nodup_range
  obtain ⟨distinct, -, disjoint⟩ := List.nodup_append.mp once
  cases serves with
  | executing queued =>
    exact absurd rfl (disjoint _ (List.mem_map_of_mem taken) _
      (List.mem_append_left _ (List.mem_map_of_mem queued)))
  | ended near other done named ends =>
    exact absurd named.symm (disjoint _ (List.mem_map_of_mem taken) _
      (List.mem_append_right _ (List.mem_map_of_mem done)))
  | returned near other former ends =>
    cases List.inj_on_of_nodup_map distinct taken former rfl
    exact ⟨near, ends⟩

theorem of_polled (serves : trial.Serves spec job finish) (kept : trial.Kept spec)
    (ends : job.finishCycle = some finish) {tick : Nat} {result : OffloadResult} {after : Bench}
    (polled : trial.bench.poll? job.handle tick = some (result, after)) :
    finish * spec.clock.period ≤ horizon ∧ result.completedAt = finish * spec.clock.period := by
  have later := serves.poll kept ends job.handle tick
  have still := kept.act (.poll job.handle tick)
  apply later.of_returned still
  simp only [Trial.act, polled]
  simp

theorem ready (serves : trial.Serves spec job finish) (kept : trial.Kept spec)
    (ends : job.finishCycle = some finish) (near : finish * spec.clock.period ≤ horizon)
    (absent : job.handle ∉ trial.returned.map Prod.fst) {now : Nat}
    (elapsed : finish * spec.clock.period ≤ now) : trial.bench.unit.Ready now job.handle := by
  cases serves with
  | executing queued =>
    rw [← kept.built.clock] at near elapsed
    exact .inr ⟨job, queued, rfl, finish, ends, near, elapsed⟩
  | ended near result done named tick => exact .inl ⟨result, done, named, tick ▸ elapsed⟩
  | returned near result taken => exact absurd (List.mem_map_of_mem taken) absent

end Serves

/-- A job that never ends: it executes, stays in the queue, and nothing is handed over for it. -/
structure Withholds (trial : Trial) (job : Job) : Prop where
  executing : job.isExecuting = true
  queued : job ∈ trial.bench.unit.queue
  unpolled : ∀ tick, trial.bench.poll? job.handle tick = none
  unreturned : ∀ result, (job.handle, result) ∉ trial.returned

/-- An offload that ends at `tick`: so says its result, and from then on it can be collected, once. -/
structure Completes (trial : Trial) (handle tick : Nat) : Prop where
  polled : ∀ now result after, trial.bench.poll? handle now = some (result, after) → result.completedAt = tick
  returned : ∀ result, (handle, result) ∈ trial.returned → result.completedAt = tick
  ready : handle ∉ trial.returned.map Prod.fst → ∀ now,
    (trial.bench.poll? handle now).isSome ↔ tick ≤ now

theorem Serves.withholds (serves : trial.Serves spec job finish) (kept : trial.Kept spec)
    (ends : job.finishCycle = some finish) (far : horizon < finish * spec.clock.period) :
    trial.Withholds job where
  executing := by
    rw [Job.isExecuting, ends]
    rfl
  queued := by
    cases serves with
    | executing queued => exact queued
    | ended near | returned near => exact absurd near (Nat.not_le.mpr far)
  unpolled tick := by
    cases polled : trial.bench.poll? job.handle tick with
    | none => rfl
    | some found => exact absurd (serves.of_polled kept ends polled).1 (Nat.not_le.mpr far)
  unreturned result taken := Nat.not_le.mpr far (serves.of_returned kept taken).1

theorem Serves.completes (serves : trial.Serves spec job finish) (kept : trial.Kept spec)
    (ends : job.finishCycle = some finish) (near : finish * spec.clock.period ≤ horizon) :
    trial.Completes job.handle (finish * spec.clock.period) where
  polled now result after found := (serves.of_polled kept ends found).2
  returned result taken := (serves.of_returned kept taken).2
  ready := by
    intro absent now
    constructor
    · intro found
      obtain ⟨⟨result, after⟩, polled⟩ := Option.isSome_iff_exists.mp found
      obtain ⟨⟨_, unit, effects⟩, taken, same⟩ := Option.map_eq_some_iff.mp polled
      cases same
      rw [← (serves.of_polled kept ends polled).2]
      exact Coprocessor.completedAt_le_of_poll? taken
    · intro elapsed
      cases polled : trial.bench.unit.poll? job.handle now with
      | none =>
        have ready := serves.ready kept ends near absent elapsed
        exact absurd ready (kept.consistent.not_ready_of_poll? polled)
      | some found => simp [Bench.poll?, polled]

theorem addUpToHorizon_of_le {start duration period : Nat} (positive : 0 < period)
    (near : (start + duration) * period ≤ horizon) :
    addUpToHorizon start duration = start + duration :=
  Nat.min_eq_left (Nat.le_trans (Nat.le_mul_of_pos_right _ positive) near)

theorem lt_addUpToHorizon_mul {start duration period : Nat} (slow : 1 < period)
    (far : horizon < (start + duration) * period) : horizon < addUpToHorizon start duration * period := by
  by_cases within : start + duration ≤ horizon
  · rw [addUpToHorizon, Nat.min_eq_left within]
    exact far
  · rw [addUpToHorizon, Nat.min_eq_right (by omega)]
    exact (Nat.lt_mul_iff_one_lt_right (by decide)).mpr slow

/-- Whatever is done before a job starts and after: if it ends within the horizon, its end is the tick of
    its result; and if not, it never ends, unless each tick is an edge, as then the horizon is its end. -/
theorem fate_of_started {after : Trial} {actions later : List Action}
    (reached : run owner spec sink actions = trial)
    (goes : run owner spec sink (actions ++ .edge :: later) = after)
    (waits : job ∈ trial.bench.unit.queue) (idle : job.finishCycle = none)
    (starts : ∃ begun ∈ trial.bench.edge.unit.queue,
      begun.handle = job.handle ∧ begun.isExecuting = true) :
    (1 < spec.clock.period →
        horizon < (spec.clock.cycleAt trial.bench.now + job.duration) * spec.clock.period →
        after.Withholds { job with
          finishCycle := some (addUpToHorizon (spec.clock.cycleAt trial.bench.now) job.duration) }) ∧
      ((spec.clock.cycleAt trial.bench.now + job.duration) * spec.clock.period ≤ horizon →
        after.Completes job.handle
          ((spec.clock.cycleAt trial.bench.now + job.duration) * spec.clock.period)) ∧
      (spec.clock.period = 1 → horizon < spec.clock.cycleAt trial.bench.now + job.duration →
        after.Completes job.handle horizon) := by
  obtain ⟨begun, member, same, started⟩ := starts
  have kept : trial.Kept spec := reached ▸ kept_run actions
  have kept_after : after.Kept spec := goes ▸ kept_run _
  have born := kept.consistent.mem_edge_of_started waits idle member same started
  rw [kept.built.clock] at born
  have ends : begun.finishCycle =
      some (addUpToHorizon (spec.clock.cycleAt trial.bench.now) job.duration) := by rw [born]
  -- from here on the job is followed through whatever is done later
  have serves : after.Serves spec begun
      (addUpToHorizon (spec.clock.cycleAt trial.bench.now) job.duration) := by
    have first : (run owner spec sink (actions ++ [.edge])).Serves spec begun
        (addUpToHorizon (spec.clock.cycleAt trial.bench.now) job.duration) := by
      rw [run_concat, reached]
      exact .executing member
    have last := first.run ends later
    rw [List.append_assoc, List.singleton_append, goes] at last
    exact last
  rw [← born, ← same]
  refine ⟨?_, ?_, ?_⟩
  · intro slow far
    exact serves.withholds kept_after ends (lt_addUpToHorizon_mul slow far)
  · intro near
    rw [addUpToHorizon_of_le spec.clock.period_pos near] at serves ends
    exact serves.completes kept_after ends near
  · intro fast far
    rw [addUpToHorizon, Nat.min_eq_right (Nat.le_of_lt far)] at serves ends
    have tick : horizon * spec.clock.period = horizon := by rw [fast, Nat.mul_one]
    have completes := serves.completes kept_after ends (Nat.le_of_eq tick)
    rw [tick] at completes
    exact completes

theorem never_ends_at_period_two :
    ∃ trial after, run 0 ⟨.ofPeriod 2, 2, .multi, 2, 0⟩ { level := 0 }
        [.submit ⟨7, 0x8000000000000000, []⟩] = trial ∧
      run 0 ⟨.ofPeriod 2, 2, .multi, 2, 0⟩ { level := 0 } ([.submit ⟨7, 0x8000000000000000, []⟩] ++
        .edge :: [.schedule horizon (.coreEdge 0), .pop, .pop, .edge, .poll 0 horizon]) = after ∧
      trial.bench.now = 0 ∧ after.bench.now = horizon ∧ horizon < (0 / 2 + 0x8000000000000000) * 2 ∧
      after.Withholds ⟨0, ⟨7, 0x8000000000000000, []⟩, 0, 0, some (addUpToHorizon 0 0x8000000000000000)⟩ := by
  obtain ⟨trial, reached⟩ : ∃ trial, run 0 ⟨.ofPeriod 2, 2, .multi, 2, 0⟩ { level := 0 }
      [.submit ⟨7, 0x8000000000000000, []⟩] = trial := ⟨_, rfl⟩
  obtain ⟨after, goes⟩ : ∃ after, run 0 ⟨.ofPeriod 2, 2, .multi, 2, 0⟩ { level := 0 }
      ([.submit ⟨7, 0x8000000000000000, []⟩] ++
        .edge :: [.schedule horizon (.coreEdge 0), .pop, .pop, .edge, .poll 0 horizon]) = after := ⟨_, rfl⟩
  have now : trial.bench.now = 0 := by
    rw [← reached]
    rfl
  have waits : ⟨0, ⟨7, 0x8000000000000000, []⟩, 0, 0, none⟩ ∈ trial.bench.unit.queue := by
    rw [← reached]
    decide +kernel
  have starts : ∃ begun ∈ trial.bench.edge.unit.queue, begun.handle = 0 ∧ begun.isExecuting = true := by
    rw [← reached]
    decide +kernel
  have last : after.bench.now = horizon := by
    rw [← goes]
    decide +kernel
  have fate := (fate_of_started reached goes waits rfl starts).1 (by decide)
  rw [now] at fate
  exact ⟨trial, after, reached, goes, now, last, by decide, fate (by decide +kernel)⟩

/-- A clock of one tick: of an offload that would end behind the horizon there is a result at the horizon. -/
theorem ends_at_horizon_of_period_one :
    let actions : List Action := [.schedule 1 (.coreEdge 0), .pop, .submit ⟨7, horizon, []⟩]
    let trial := run 0 ⟨.ofPeriod 1, 2, .single, 1, 0⟩ { level := 0 } actions
    let after := run 0 ⟨.ofPeriod 1, 2, .single, 1, 0⟩ { level := 0 } (actions ++ [.edge, .pop, .pop, .edge])
    trial.bench.edge.unit.executing = 1 ∧ horizon < (trial.bench.now + horizon) * 1 ∧
      (after.bench.poll? 0 after.bench.now).map Prod.fst = some ⟨0, 7, [], 1, horizon⟩ := by
  decide +kernel

end Bench.Trial

end CoreTiming
