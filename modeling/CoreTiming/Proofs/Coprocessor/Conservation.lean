import CoreTiming.Proofs.Coprocessor.BenchRuns
import CoreTiming.Proofs.Coprocessor.Slots
import Mathlib.Order.Bounds.Basic

namespace CoreTiming

theorem Timeline.apply_none (timeline : Timeline) : timeline.apply .none = timeline := by
  cases timeline
  simp [apply, Effects.none, Sink.addAll]

namespace Bench

/-- What a caller can do. A poll may look at any tick, and an edge runs whether it is due or not. -/
inductive Action
  | submit (work : Offload)
  | poll (handle tick : Nat)
  | edge
  | schedule (tick : Nat) (event : Event)
  | pop
  deriving DecidableEq, Repr

/-- Moves time to the next event, which is lost. -/
def pop (bench : Bench) : Bench :=
  match bench.timeline.queue.pop? with
  | none => bench
  | some (_, queue) => { bench with timeline := { bench.timeline with queue := queue } }

variable {bench : Bench}

theorem submit_of_full (full : bench.unit.capacity ≤ bench.unit.occupancy) (work : Offload) :
    bench.submit work = (.error ⟨bench.unit.capacity⟩,
      { bench with unit := { bench.unit with counters := { bench.unit.counters with
          rejected := bench.unit.counters.rejected + 1 } } }) := by
  simp only [submit, Coprocessor.submit_of_full full, Timeline.apply_none]

theorem submit_of_room (room : ¬ bench.unit.capacity ≤ bench.unit.occupancy) (work : Offload) :
    ∃ edge effects, bench.submit work = (.ok bench.unit.nextHandle,
      ⟨{ bench.unit.accept bench.now work with nextEdge := edge }, bench.timeline.apply effects⟩) := by
  obtain ⟨edge, same⟩ := Coprocessor.submit_of_room_eq room bench.now work
  refine ⟨edge, (bench.unit.submit bench.now work).2.2, Prod.ext ?_ ?_⟩
  · exact (Coprocessor.submit_of_room room bench.now work).1
  · rw [← same]
    rfl

/-- A bench with what its caller has seen: the offloads that were accepted, and the results with the
    handles that were polled for them. -/
structure Trial where
  bench : Bench
  accepted : List Submission := []
  returned : List (Nat × OffloadResult) := []

namespace Trial

def act (trial : Trial) : Action → Trial
  | .submit work =>
    match trial.bench.submit work with
    | (.ok handle, after) =>
      { trial with bench := after, accepted := trial.accepted ++ [⟨handle, trial.bench.now, work⟩] }
    | (.error _, after) => { trial with bench := after }
  | .poll handle tick =>
    match trial.bench.poll? handle tick with
    | some (result, after) =>
      { trial with bench := after, returned := trial.returned ++ [(handle, result)] }
    | none => trial
  | .edge => { trial with bench := trial.bench.edge }
  | .schedule tick event =>
    { trial with bench := { trial.bench with timeline := trial.bench.timeline.schedule tick event } }
  | .pop => { trial with bench := trial.bench.pop }

def run (owner : Nat) (spec : CoprocessorSpec) (sink : Sink) (actions : List Action) : Trial :=
  actions.foldl act { bench := ⟨.ofSpec owner spec, { sink := sink }⟩ }

/-- The books of a coprocessor: what it has accepted, what it holds and what it has returned agree with
    one another and with its counters, and a refusal leaves all but its own counter alone. -/
structure Conserved (spec : CoprocessorSpec) (trial : Trial) : Prop where
  numbered : trial.accepted.map Submission.handle = List.range trial.accepted.length
  places : (trial.returned.map Prod.fst ++ (trial.bench.unit.queue.map Job.handle ++
    trial.bench.unit.done.map OffloadResult.handle)).Perm (List.range trial.accepted.length)
  answered : ∀ entry ∈ trial.returned, ∃ submission ∈ trial.accepted,
    submission.handle = entry.1 ∧ entry.2.Answers submission
  submitted : trial.bench.unit.counters.submitted = trial.accepted.length
  executed : trial.bench.unit.counters.executed =
    trial.bench.unit.done.length + trial.returned.length
  balanced : trial.bench.unit.counters.submitted =
    trial.bench.unit.counters.executed + trial.bench.unit.occupancy
  fits : trial.bench.unit.occupancy ≤ spec.queueDepth
  width : trial.bench.unit.issueWidth = match spec.issue with
    | .single => 1
    | .multi => max spec.issueWidth 1
  slots : trial.bench.unit.executing ≤ trial.bench.unit.issueWidth
  inOrder : (trial.bench.unit.queue.map Job.handle).Pairwise (· < ·)
  ready : (trial.bench.unit.queue.map Job.readyCycle).Pairwise (· ≤ ·)
  eager : trial.bench.unit.nextEdge = some trial.bench.now → ∀ job ∈ trial.bench.edge.unit.queue,
    job.finishCycle = none → job.readyCycle ≤ spec.clock.cycleAt trial.bench.now →
      trial.bench.edge.unit.executing = trial.bench.unit.issueWidth
  refuses : ∀ work, (∃ refusal, (trial.bench.submit work).1 = .error refusal) ↔
    trial.bench.unit.occupancy = spec.queueDepth
  untouched : ∀ work refusal, (trial.bench.submit work).1 = .error refusal →
    (trial.bench.submit work).2 =
      { trial.bench with unit := { trial.bench.unit with counters := { trial.bench.unit.counters with
          rejected := trial.bench.unit.counters.rejected + 1 } } }

structure Kept (spec : CoprocessorSpec) (trial : Trial) : Prop where
  built : trial.bench.unit.Built spec
  consistent : trial.bench.unit.Consistent trial.accepted
  orderly : trial.bench.unit.Orderly trial.bench.now
  ordered : trial.bench.timeline.queue.Ordered
  places : (trial.returned.map Prod.fst ++ trial.bench.unit.held).Perm
    (trial.accepted.map Submission.handle)
  answered : ∀ entry ∈ trial.returned, ∃ submission ∈ trial.accepted,
    submission.handle = entry.1 ∧ entry.2.Answers submission

namespace Kept

variable {spec : CoprocessorSpec} {trial : Trial} {work : Offload}

theorem refuse (kept : trial.Kept spec) (full : trial.bench.unit.capacity ≤ trial.bench.unit.occupancy) :
    (trial.act (.submit work)).Kept spec := by
  simp only [act, submit_of_full full]
  exact { kept with
    built := { kept.built with }
    consistent := kept.consistent.refuse _
    orderly := { kept.orderly with } }

theorem accept (kept : trial.Kept spec) (room : ¬ trial.bench.unit.capacity ≤ trial.bench.unit.occupancy) :
    (trial.act (.submit work)).Kept spec := by
  obtain ⟨edge, effects, submitted⟩ := submit_of_room room work
  simp only [act, submitted]
  exact {
    built := { kept.built with }
    consistent := (kept.consistent.accept trial.bench.now work).withEdge edge
    orderly := by
      rw [Sound.now_apply]
      exact (kept.orderly.accept room work).withEdge edge
    ordered := kept.ordered.scheduleAll _
    places := by
      rw [List.map_append]
      refine .trans (.append_left _ (trial.bench.unit.held_accept trial.bench.now work)) ?_
      refine List.perm_middle.trans ?_
      exact (kept.places.cons _).trans (List.perm_append_singleton ..).symm
    answered := by
      intro entry member
      obtain ⟨submission, known, answers⟩ := kept.answered entry member
      exact ⟨submission, List.mem_append_left _ known, answers⟩ }

theorem collect (kept : trial.Kept spec) {handle tick : Nat} {result : OffloadResult} {after : Bench}
    (polled : trial.bench.poll? handle tick = some (result, after)) :
    (trial.act (.poll handle tick)).Kept spec := by
  simp only [act, polled]
  obtain ⟨⟨_, unit, effects⟩, taken, same⟩ := Option.map_eq_some_iff.mp polled
  cases same
  obtain ⟨consistent, handed, ⟨submission, known, answers⟩, named⟩ := kept.consistent.poll taken
  exact {
    built := kept.built.poll taken
    consistent := consistent
    orderly := by
      rw [Sound.now_apply]
      exact kept.orderly.poll taken
    ordered := kept.ordered.scheduleAll _
    places := by
      refine .trans ?_ kept.places
      rw [List.map_append, List.append_assoc]
      exact (handed.symm).append_left _
    answered := by
      intro entry member
      rcases List.mem_append.mp member with member | single
      · exact kept.answered entry member
      · rw [List.mem_singleton.mp single]
        exact ⟨submission, known, answers.1.symm.trans named, answers⟩ }

theorem edge (kept : trial.Kept spec) : (trial.act .edge).Kept spec where
  built := kept.built.edge _
  consistent := kept.consistent.edge _
  orderly := by
    simp only [act]
    rw [Bench.edge, Sound.now_apply]
    exact kept.orderly.edge
  ordered := kept.ordered.scheduleAll _
  places := ((trial.bench.unit.held_edge trial.bench.now).append_left _).trans kept.places
  answered := kept.answered

theorem schedule (kept : trial.Kept spec) (tick : Nat) (event : Event) :
    (trial.act (.schedule tick event)).Kept spec :=
  { kept with ordered := kept.ordered.schedule tick event }

theorem pop (kept : trial.Kept spec) : (trial.act .pop).Kept spec := by
  simp only [act, Bench.pop]
  split
  · exact kept
  · rename_i queue popped
    obtain ⟨ordered, order⟩ := kept.ordered.pop? popped
    exact { kept with
      orderly := kept.orderly.wait order
      ordered := ordered }

theorem act (kept : trial.Kept spec) (action : Action) : (trial.act action).Kept spec := by
  cases action with
  | submit work =>
    by_cases full : trial.bench.unit.capacity ≤ trial.bench.unit.occupancy
    · exact kept.refuse full
    · exact kept.accept full
  | poll handle tick =>
    cases polled : trial.bench.poll? handle tick with
    | none =>
      simp only [Trial.act, polled]
      exact kept
    | some found => exact kept.collect polled
  | edge => exact kept.edge
  | schedule tick event => exact kept.schedule tick event
  | pop => exact kept.pop

theorem highWater_of_eq (kept : trial.Kept spec) {before : Coprocessor}
    (same : trial.bench.unit.counters.highWater = before.counters.highWater) :
    trial.bench.unit.counters.highWater =
      max before.counters.highWater trial.bench.unit.occupancy := by
  have marked := kept.orderly.marked
  omega

theorem highWater_act (kept : trial.Kept spec) (action : Action) :
    (trial.act action).bench.unit.counters.highWater =
      max trial.bench.unit.counters.highWater (trial.act action).bench.unit.occupancy := by
  have after := kept.act action
  cases action with
  | submit work =>
    by_cases full : trial.bench.unit.capacity ≤ trial.bench.unit.occupancy
    · apply after.highWater_of_eq
      simp only [Trial.act, submit_of_full full]
    · obtain ⟨edge, effects, submitted⟩ := submit_of_room full work
      simp only [Trial.act, submitted]
      rfl
  | poll handle tick =>
    apply after.highWater_of_eq
    cases polled : trial.bench.poll? handle tick with
    | none => simp only [Trial.act, polled]
    | some found =>
      obtain ⟨_, taken, same⟩ := Option.map_eq_some_iff.mp polled
      cases same
      simp only [Trial.act, polled]
      exact Coprocessor.Orderly.highWater_poll taken
  | edge => exact after.highWater_of_eq (Coprocessor.Orderly.highWater_edge ..)
  | schedule tick event => exact after.highWater_of_eq rfl
  | pop =>
    apply after.highWater_of_eq
    simp only [Trial.act, Bench.pop]
    split <;> rfl

theorem conserved (kept : trial.Kept spec) : trial.Conserved spec := by
  have lengths := kept.places.length_eq
  have count := congrArg List.length kept.consistent.numbered
  have accepted := kept.consistent.accepted
  have executed := kept.consistent.executed
  have capacity := kept.built.capacity
  have fits := kept.orderly.fits
  simp only [Coprocessor.held, List.length_append, List.length_map, List.length_range] at lengths count
  have numbered : trial.accepted.map Submission.handle = List.range trial.accepted.length := by
    rw [count]
    exact kept.consistent.numbered
  have full_iff : trial.bench.unit.capacity ≤ trial.bench.unit.occupancy ↔
      trial.bench.unit.occupancy = spec.queueDepth := by omega
  refine {
    numbered := numbered
    places := numbered ▸ kept.places
    answered := kept.answered
    submitted := by omega
    executed := by omega
    balanced := executed.symm
    fits := by omega
    width := kept.built.width
    slots := kept.orderly.slots
    inOrder := kept.consistent.sorted
    ready := kept.orderly.ready
    eager := fun due job member waiting ready => ?_
    refuses := fun work => ?_
    untouched := fun work refusal refused => ?_ }
  · rw [← kept.built.clock] at ready
    exact kept.orderly.full_of_waiting due member waiting ready
  · rw [← full_iff]
    constructor
    · rintro ⟨refusal, refused⟩
      by_contra room
      obtain ⟨edge, effects, submitted⟩ := submit_of_room room work
      rw [submitted] at refused
      cases refused
    · intro full
      exact ⟨_, congrArg Prod.fst (submit_of_full full work)⟩
  · by_cases full : trial.bench.unit.capacity ≤ trial.bench.unit.occupancy
    · rw [submit_of_full full]
    · obtain ⟨edge, effects, submitted⟩ := submit_of_room full work
      rw [submitted] at refused
      cases refused

end Kept

variable {owner : Nat} {spec : CoprocessorSpec} {sink : Sink}

theorem run_concat (actions : List Action) (action : Action) :
    run owner spec sink (actions ++ [action]) = (run owner spec sink actions).act action := by
  simp only [run, List.foldl_append, List.foldl_cons, List.foldl_nil]

theorem kept_run (actions : List Action) : (run owner spec sink actions).Kept spec := by
  induction actions using List.reverseRecOn with
  | nil => exact {
      built := ⟨rfl, rfl, rfl⟩
      consistent := Coprocessor.consistent_ofSpec owner spec
      orderly := .ofSpec owner spec
      ordered := Queue.ordered_empty
      places := .nil
      answered := by simp [run] }
  | append_singleton actions action ih =>
    rw [run_concat]
    exact ih.act action

def occupancies (owner : Nat) (spec : CoprocessorSpec) (sink : Sink) (actions : List Action) : Set Nat :=
  {occupancy | ∃ earlier, earlier <+: actions ∧
    (run owner spec sink earlier).bench.unit.occupancy = occupancy}

theorem occupancies_concat (actions : List Action) (action : Action) :
    occupancies owner spec sink (actions ++ [action]) =
      insert (run owner spec sink (actions ++ [action])).bench.unit.occupancy
        (occupancies owner spec sink actions) := by
  ext occupancy
  simp only [occupancies, List.prefix_concat_iff, Set.mem_insert_iff, Set.mem_ofPred_eq, or_and_right,
    exists_or, exists_eq_left, eq_comm]

theorem isGreatest_highWater (actions : List Action) :
    IsGreatest (occupancies owner spec sink actions)
      (run owner spec sink actions).bench.unit.counters.highWater := by
  induction actions using List.reverseRecOn with
  | nil =>
    refine ⟨⟨[], List.nil_prefix, rfl⟩, ?_⟩
    rintro _ ⟨earlier, begun, rfl⟩
    rw [List.prefix_nil.mp begun]
    exact Nat.zero_le _
  | append_singleton actions action ih =>
    have kept : (run owner spec sink actions).Kept spec := kept_run actions
    have raised := kept.highWater_act action
    rw [← run_concat, max_comm] at raised
    rw [occupancies_concat, raised]
    exact ih.insert _

/-- Every coprocessor, used in every way: its books balance, and its mark is the greatest occupancy
    that there has been. -/
theorem conserved_run (owner : Nat) (spec : CoprocessorSpec) (sink : Sink) (actions : List Action) :
    (run owner spec sink actions).Conserved spec ∧
      IsGreatest (occupancies owner spec sink actions)
        (run owner spec sink actions).bench.unit.counters.highWater :=
  ⟨(kept_run actions).conserved, isGreatest_highWater actions⟩

example : ((run 0 ⟨.ofPeriod 3, 1, .single, 1, 0⟩ { level := 0 }
    [.submit ⟨7, 2, []⟩, .submit ⟨8, 1, []⟩, .poll 0 100, .edge, .poll 0 5, .poll 0 6, .poll 0 6,
      .submit ⟨9, 1, []⟩]).returned.map Prod.fst) = [0] := by decide

end Trial

end Bench

end CoreTiming
