import CoreTiming.Proofs.Coprocessor.Conservation

namespace CoreTiming

namespace Coprocessor

structure Timely (unit : Coprocessor) (now : Nat) : Prop where
  awaited : ∀ tick, unit.nextEdge = some tick → tick ≤ horizon ∧ unit.clock.period ∣ tick
  past : ∀ result ∈ unit.done, result.completedAt ≤ now

namespace Timely

variable {unit after : Coprocessor} {now : Nat}

theorem ofSpec (owner : Nat) (spec : CoprocessorSpec) : (ofSpec owner spec).Timely now where
  awaited tick asked := by cases asked
  past result member := by cases member

theorem wait (timely : unit.Timely now) {later : Nat} (order : now ≤ later) : unit.Timely later :=
  { timely with past := fun result member => Nat.le_trans (timely.past result member) order }

theorem submit (timely : unit.Timely now) (work : Offload) : (unit.submit now work).2.1.Timely now := by
  by_cases full : unit.capacity ≤ unit.occupancy
  · rw [submit_of_full full]
    exact { timely with }
  · rcases (submit_of_room full now work).2 with ⟨-, same, -⟩ | ⟨near, same, -⟩
    · rw [same]
      exact { timely with }
    · obtain ⟨edge, requested, -, -, choice⟩ :=
        requestEdge_spec (unit.accept now work) (unit.clock.firstEdge now)
      rw [same, requested]
      refine { timely with awaited := fun tick asked => ?_ }
      cases asked
      rcases choice with ⟨asked, -⟩ | ⟨rfl, -⟩
      · exact timely.awaited edge asked
      · exact ⟨near, Clock.period_dvd_firstEdge now⟩

theorem poll (timely : unit.Timely now) {handle tick : Nat} {result : OffloadResult} {effects : Effects}
    (polled : unit.poll? handle tick = some (result, after, effects)) : after.Timely now := by
  obtain ⟨-, ⟨-, -, -, rfl⟩ | ⟨_, _, -, -, -, -, -, -, rfl⟩⟩ := poll?_eq_some polled
  · exact { timely with past := fun other member => timely.past other (List.mem_of_mem_eraseP member) }
  · exact { timely with }

theorem completedAt_le {job : Job} (finished : job.finishedBy (unit.clock.cycleAt now) = true) :
    (unit.result job).completedAt ≤ now := by
  obtain ⟨finish, ended, reached⟩ := finishedBy_cycleAt_iff.mp finished
  show unit.clock.tickOfCycle (job.finishCycle.getD 0) ≤ now
  rw [ended]
  exact Nat.le_trans (Nat.min_le_left ..) reached

theorem edge (timely : unit.Timely now) : (unit.edge now).1.Timely now := by
  by_cases due : unit.nextEdge = some now
  · rw [(edge_of_eq due).1]
    refine ⟨fun tick asked => (nextEdge?_eq_some asked).2, fun result member => ?_⟩
    rw [done_settle] at member
    rcases List.mem_append.mp member with before | moved
    · exact timely.past result before
    · obtain ⟨job, finished, rfl⟩ := List.mem_map.mp moved
      exact completedAt_le (List.mem_filter.mp finished).2
  · rw [edge_of_ne due]
    exact timely

end Timely

end Coprocessor

namespace Bench.Trial

variable {trial : Trial} {handle tick : Nat}

theorem act_poll {result : OffloadResult} {unit : Coprocessor} {effects : Effects}
    (polled : trial.bench.unit.poll? handle tick = some (result, unit, effects)) :
    trial.act (.poll handle tick) = { trial with
      bench := ⟨unit, trial.bench.timeline.apply effects⟩
      returned := trial.returned ++ [(handle, result)] } := by
  simp only [act, Bench.poll?, polled, Option.map_some]

theorem act_poll_of_none (polled : trial.bench.unit.poll? handle tick = none) :
    trial.act (.poll handle tick) = trial := by
  simp only [act, Bench.poll?, polled, Option.map_none]

theorem act_edge (trial : Trial) : trial.act .edge = { trial with
    bench := ⟨(trial.bench.unit.edge trial.bench.now).1,
      trial.bench.timeline.apply (trial.bench.unit.edge trial.bench.now).2⟩ } := rfl

theorem timely_act {spec : CoprocessorSpec} (kept : trial.Kept spec)
    (timely : trial.bench.unit.Timely trial.bench.now) (action : Action) :
    (trial.act action).bench.unit.Timely (trial.act action).bench.now := by
  cases action with
  | submit work =>
    have submitted : (trial.bench.submit work).2.unit.Timely (trial.bench.submit work).2.now := by
      show Coprocessor.Timely _ (now ⟨_, trial.bench.timeline.apply _⟩)
      rw [Sound.now_apply]
      exact timely.submit work
    rw [act]
    split
    · rename_i same
      rw [same] at submitted
      exact submitted
    · rename_i same
      rw [same] at submitted
      exact submitted
  | poll handle tick =>
    cases polled : trial.bench.unit.poll? handle tick with
    | none =>
      rw [act_poll_of_none polled]
      exact timely
    | some found =>
      rw [act_poll polled, Sound.now_apply]
      exact timely.poll polled
  | edge =>
    rw [act_edge, Sound.now_apply]
    exact timely.edge
  | schedule tick event => exact timely
  | pop =>
    simp only [act, Bench.pop]
    split
    · exact timely
    · rename_i queue popped
      exact timely.wait (kept.ordered.pop? popped).2

theorem timely_run {owner : Nat} {spec : CoprocessorSpec} {sink : Sink} (actions : List Action) :
    (run owner spec sink actions).bench.unit.Timely (run owner spec sink actions).bench.now := by
  induction actions using List.reverseRecOn with
  | nil => exact .ofSpec owner spec
  | append_singleton actions action ih =>
    rw [run_concat]
    exact timely_act (kept_run actions) ih action

end Bench.Trial

end CoreTiming
