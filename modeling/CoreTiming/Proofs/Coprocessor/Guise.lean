import CoreTiming.Core
import CoreTiming.Proofs.Coprocessor.Steps
import CoreTiming.Proofs.Time.Guise

namespace CoreTiming

namespace Coprocessor

/-- The ticks that decide where a submission leads, uncut by the horizon. -/
def submissionReckons (unit : Coprocessor) (now : Nat) : List Nat :=
  if unit.capacity ≤ unit.occupancy then [] else [unit.clock.firstEdge now]

def edgeReckons (unit : Coprocessor) (now : Nat) : List Nat :=
  if unit.nextEdge ≠ some now then []
  else
    let cycle := unit.clock.cycleAt now
    ((unit.settle cycle).nextActivity? cycle).toList.map (· * unit.clock.period)

end Coprocessor

namespace Guise

variable (guise : Guise)

def FitsAll (ticks : List Nat) : Prop :=
  ∀ tick ∈ ticks, guise.Fits tick

variable {guise} in
theorem fitsAll_cons {tick : Nat} {ticks : List Nat} :
    guise.FitsAll (tick :: ticks) ↔ guise.Fits tick ∧ guise.FitsAll ticks :=
  List.forall_mem_cons

variable {guise} in
theorem fitsAll_append {ticks others : List Nat} :
    guise.FitsAll (ticks ++ others) ↔ guise.FitsAll ticks ∧ guise.FitsAll others :=
  List.forall_mem_append

def event : Event → Event
  | .response core address kind issuedAt => .response core address kind (guise.tick issuedAt)
  | event => event

def post (post : Nat × Event) : Nat × Event :=
  (guise.tick post.1, guise.event post.2)

/-- The latency of an offload is the only statistic in ticks. -/
def record (record : Record) : Record :=
  if record.statistic = .offloadLatency then { record with value := guise.tick record.value } else record

theorem record_of_ne {statistic : Statistic} (other : statistic ≠ .offloadLatency) (component : String)
    (value : Nat) : guise.record ⟨component, statistic, value⟩ = ⟨component, statistic, value⟩ :=
  if_neg other

theorem record_offloadLatency (component : String) (ticks : Nat) :
    guise.record ⟨component, .offloadLatency, ticks⟩ = ⟨component, .offloadLatency, guise.tick ticks⟩ :=
  if_pos rfl

def effects (log : List Log.Line) (effects : Effects) : Effects where
  posts := effects.posts.map guise.post
  records := effects.records.map guise.record
  log := log

def result (result : OffloadResult) : OffloadResult :=
  { result with
    submittedAt := guise.tick result.submittedAt
    completedAt := guise.tick result.completedAt }

def job (job : Job) : Job :=
  { job with submittedAt := guise.tick job.submittedAt }

def unit (unit : Coprocessor) : Coprocessor :=
  { unit with
    clock := guise.clock unit.clock
    verbose := guise.unitVerbosity unit.verbose
    queue := unit.queue.map guise.job
    done := unit.done.map guise.result
    nextEdge := unit.nextEdge.map guise.tick }

def Mirrors (effects other : Effects) : Prop :=
  ∃ log, other = guise.effects log effects

namespace Mirrors

variable {guise} {effects other more others : Effects}

theorem none : guise.Mirrors .none .none :=
  ⟨[], rfl⟩

theorem lineIf (condition watched : Bool) (line entry : Log.Line) :
    guise.Mirrors (.lineIf condition line) (.lineIf watched entry) := by
  cases condition <;> cases watched <;> exact ⟨_, rfl⟩

theorem append (mirrors : guise.Mirrors effects other) (also : guise.Mirrors more others) :
    guise.Mirrors (effects ++ more) (other ++ others) := by
  obtain ⟨log, rfl⟩ := mirrors
  obtain ⟨later, rfl⟩ := also
  exact ⟨log ++ later, congrArg₂ (Effects.mk · · (log ++ later)) List.map_append.symm List.map_append.symm⟩

end Mirrors

variable (unit : Coprocessor)

theorem clock_unit : (guise.unit unit).clock = guise.clock unit.clock := rfl

theorem queue_unit : (guise.unit unit).queue = unit.queue.map guise.job := rfl

theorem nextEdge_unit : (guise.unit unit).nextEdge = unit.nextEdge.map guise.tick := rfl

theorem capacity_unit : (guise.unit unit).capacity = unit.capacity := rfl

theorem issueWidth_unit : (guise.unit unit).issueWidth = unit.issueWidth := rfl

theorem occupancy_unit : (guise.unit unit).occupancy = unit.occupancy :=
  List.length_map _

theorem executing_unit : (guise.unit unit).executing = unit.executing :=
  List.countP_map ..

variable (tick : Nat)

theorem any_tick_le (edge : Option Nat) :
    (edge.map guise.tick).any (· ≤ guise.tick tick) = edge.any (· ≤ tick) := by
  cases edge with
  | none => rfl
  | some edge => exact decide_eq_decide.mpr tick_le_tick

theorem map_tick_eq_some {edge : Option Nat} :
    edge.map guise.tick = some (guise.tick tick) ↔ edge = some tick := by
  cases edge with
  | none => simp
  | some edge => simp only [Option.map_some, Option.some.injEq, tick_inj]

theorem requestEdge_unit : (guise.unit unit).requestEdge (guise.tick tick) =
    (guise.unit (unit.requestEdge tick).1, guise.effects [] (unit.requestEdge tick).2) := by
  unfold Coprocessor.requestEdge
  simp only [nextEdge_unit, any_tick_le]
  split <;> rfl

theorem accept_unit (work : Offload) : (guise.unit unit).accept (guise.tick tick) work =
    guise.unit (unit.accept tick work) := by
  simp [Coprocessor.accept, Guise.unit, Guise.job]

variable {guise unit}

theorem submit_unit {now : Nat} {work : Offload}
    (fits : guise.FitsAll ((guise.unit unit).submissionReckons (guise.tick now))) :
    ((guise.unit unit).submit (guise.tick now) work).1 = (unit.submit now work).1 ∧
      ((guise.unit unit).submit (guise.tick now) work).2.1 = guise.unit (unit.submit now work).2.1 ∧
      guise.Mirrors (unit.submit now work).2.2 ((guise.unit unit).submit (guise.tick now) work).2.2 := by
  unfold Coprocessor.submissionReckons at fits
  unfold Coprocessor.submit
  rw [occupancy_unit, capacity_unit] at fits ⊢
  split
  · exact ⟨rfl, rfl, .none⟩
  · rename_i room
    rw [if_neg room] at fits
    have within : guise.Fits ((guise.clock unit.clock).firstEdge (guise.tick now)) :=
      fits _ (List.mem_singleton_self _)
    have edge : (guise.unit unit).clock.tick? ((guise.unit unit).clock.cycleAtOrAfter (guise.tick now)) =
        (unit.clock.tick? (unit.clock.cycleAtOrAfter now)).map guise.tick := edgeAtOrAfter?_clock within
    simp only [edge, accept_unit]
    cases unit.clock.tick? (unit.clock.cycleAtOrAfter now) with
    | none => exact ⟨rfl, rfl, .lineIf ..⟩
    | some first =>
      simp only [Option.map_some, requestEdge_unit, true_and]
      exact ⟨rfl, .append (.lineIf ..) ⟨[], rfl⟩⟩

theorem result_unit {job : Job}
    (fits : guise.Fits (job.finishCycle.getD 0 * (guise.unit unit).clock.period)) :
    (guise.unit unit).result (guise.job job) = guise.result (unit.result job) := by
  unfold Coprocessor.result Guise.result
  simp only [clock_unit] at fits ⊢
  rw [← tickOfCycle_clock fits]
  rfl

/-- Whether a job is over is settled within the horizon, whenever it ends. -/
theorem elapsed_clock {clock : Clock} {cycle now : Nat} (fits : guise.Fits (guise.tick now)) :
    ((guise.clock clock).tick? cycle).any (· ≤ guise.tick now) = (clock.tick? cycle).any (· ≤ now) := by
  by_cases past : cycle * clock.period ≤ now
  · have reached : cycle * (guise.clock clock).period ≤ guise.tick now := by
      rw [mul_period_clock]
      exact tick_le_tick.mpr past
    rw [tick?_clock (fits.mono reached), any_tick_le]
  · have late : ∀ {clock : Clock} {now : Nat}, ¬ cycle * clock.period ≤ now →
        (clock.tick? cycle).any (· ≤ now) = false := by
      intro clock now late
      unfold Clock.tick?
      split
      · exact decide_eq_false late
      · rfl
    rw [late past, late]
    rw [mul_period_clock, tick_le_tick]
    exact past

theorem finishedJob?_unit {handle now : Nat} (fits : guise.Fits (guise.tick now)) :
    (guise.unit unit).finishedJob? handle (guise.tick now) = (unit.finishedJob? handle now).map guise.job := by
  unfold Coprocessor.finishedJob?
  rw [queue_unit, List.find?_map]
  congr 2
  funext job
  simp only [Function.comp_apply, clock_unit, show (guise.job job).handle = job.handle from rfl,
    show (guise.job job).finishCycle = job.finishCycle from rfl]
  cases job.finishCycle with
  | none => rfl
  | some finish => exact congrArg _ (elapsed_clock fits)

theorem poll?_unit {handle now : Nat} (fits : guise.Fits (guise.tick now)) :
    unit.poll? handle now = none ∧ (guise.unit unit).poll? handle (guise.tick now) = none ∨
      ∃ result after effects others, unit.poll? handle now = some (result, after, effects) ∧
        (guise.unit unit).poll? handle (guise.tick now) =
          some (guise.result result, guise.unit after, others) ∧ guise.Mirrors effects others := by
  have found : (guise.unit unit).done.find? (·.handle = handle) =
      (unit.done.find? (·.handle = handle)).map guise.result := List.find?_map ..
  unfold Coprocessor.poll?
  rw [found, finishedJob?_unit fits]
  cases unit.done.find? (·.handle = handle) with
  | some result =>
    simp only [Option.map_some, show (guise.result result).completedAt = guise.tick result.completedAt from
      rfl, tick_le_tick]
    split
    · refine .inr ⟨_, _, _, _, rfl, ?_, .none⟩
      simp only [Guise.unit, List.eraseP_map]
      rfl
    · exact .inl ⟨rfl, rfl⟩
  | none =>
    simp only [Option.map_none]
    cases ended : unit.finishedJob? handle now with
    | none => exact .inl ⟨rfl, rfl⟩
    | some job =>
      have past := List.find?_some ended
      simp only [Bool.and_eq_true, Option.any_eq_true] at past
      obtain ⟨-, tick, elapsed, within⟩ := past
      obtain ⟨finish, finishes, ticked⟩ := Option.bind_eq_some_iff.mp elapsed
      obtain ⟨rfl, -⟩ := Clock.tick?_eq_some ticked
      have reached : finish * (guise.unit unit).clock.period ≤ guise.tick now :=
        Nat.le_trans (Nat.le_of_eq (mul_period_clock ..)) (tick_le_tick.mpr (of_decide_eq_true within))
      have result : (guise.unit unit).result (guise.job job) = guise.result (unit.result job) :=
        result_unit (finishes ▸ fits.mono reached)
      refine .inr ⟨_, _, _, _, rfl, congrArg some (Prod.ext result (Prod.ext ?_ rfl)), .lineIf ..⟩
      simp only [Guise.unit, Coprocessor.countExecuted, List.eraseP_map]
      rfl

theorem mirrors_foldl {told heard : Job → Effects}
    (mirrors : ∀ job, guise.Mirrors (told job) (heard (guise.job job))) (jobs : List Job)
    {effects other : Effects} (begun : guise.Mirrors effects other) :
    guise.Mirrors (jobs.foldl (fun effects job => effects ++ told job) effects)
      ((jobs.map guise.job).foldl (fun effects job => effects ++ heard job) other) := by
  induction jobs generalizing effects other with
  | nil => exact begun
  | cons job jobs ih => exact ih (begun.append (mirrors job))

theorem retire_unit {cycle : Nat} (fits : guise.Fits (cycle * (guise.unit unit).clock.period)) :
    ((guise.unit unit).retire cycle).1 = guise.unit (unit.retire cycle).1 ∧
      guise.Mirrors (unit.retire cycle).2 ((guise.unit unit).retire cycle).2 := by
  have finished : (guise.unit unit).queue.filter (·.finishedBy cycle) =
      (unit.queue.filter (·.finishedBy cycle)).map guise.job := List.filter_map ..
  have left : (guise.unit unit).queue.filter (!·.finishedBy cycle) =
      (unit.queue.filter (!·.finishedBy cycle)).map guise.job := List.filter_map ..
  have results : ((unit.queue.filter (·.finishedBy cycle)).map guise.job).map (guise.unit unit).result =
      ((unit.queue.filter (·.finishedBy cycle)).map unit.result).map guise.result := by
    rw [List.map_map, List.map_map]
    refine List.map_congr_left fun job member => ?_
    have past := (List.mem_filter.mp member).2
    unfold Job.finishedBy at past
    obtain ⟨finish, finishes, past⟩ := (Option.any_eq_true ..).mp past
    have sooner := Nat.mul_le_mul_right (guise.unit unit).clock.period (of_decide_eq_true past)
    exact result_unit (finishes ▸ fits.mono sooner)
  unfold Coprocessor.retire
  simp only [finished, left, results]
  refine ⟨?_, ?_⟩
  · simp only [Guise.unit, Coprocessor.countExecuted, List.map_append, List.length_map]
  · exact mirrors_foldl (fun job => .lineIf ..) _ .none

theorem start_map (width cycle executing : Nat) (queue : List Job) :
    Coprocessor.start width cycle executing (queue.map guise.job) =
      ((Coprocessor.start width cycle executing queue).1.map guise.job,
        (Coprocessor.start width cycle executing queue).2) := by
  induction queue generalizing executing with
  | nil => rfl
  | cons job rest ih =>
    rw [List.map_cons]
    unfold Coprocessor.start
    simp only [ih, show (guise.job job).isExecuting = job.isExecuting from rfl,
      show (guise.job job).readyCycle = job.readyCycle from rfl]
    split_ifs <;> rfl

theorem issueJobs_unit (cycle : Nat) : (guise.unit unit).issueJobs cycle =
    (guise.unit (unit.issueJobs cycle).1, guise.effects [] (unit.issueJobs cycle).2) := by
  unfold Coprocessor.issueJobs
  rw [executing_unit, queue_unit, issueWidth_unit, start_map]
  refine Prod.ext rfl (congrArg (Effects.mk [] · []) ?_)
  rw [List.map_map]
  exact List.map_congr_left fun duration _ => (record_of_ne guise (by decide) ..).symm

theorem nextActivity?_unit (cycle : Nat) :
    (guise.unit unit).nextActivity? cycle = unit.nextActivity? cycle := by
  unfold Coprocessor.nextActivity?
  simp only [executing_unit, queue_unit, issueWidth_unit, List.filterMap_map]
  rfl

theorem nextEdge?_unit {now : Nat} (fits : guise.FitsAll
      (((guise.unit unit).nextActivity? (unit.clock.cycleAt now)).toList.map
        (· * (guise.unit unit).clock.period))) :
    (guise.unit unit).nextEdge? (guise.tick now) = (unit.nextEdge? now).map guise.tick := by
  unfold Coprocessor.nextEdge?
  rw [nextActivity?_unit, clock_unit] at fits ⊢
  rw [cycleAt_clock]
  cases next : unit.nextActivity? (unit.clock.cycleAt now) with
  | none => rfl
  | some cycle =>
    rw [next] at fits
    rw [Option.bind_some, Option.bind_some, tick?_clock (fits _ List.mem_cons_self)]
    cases unit.clock.tick? cycle with
    | none => rfl
    | some edge =>
      simp only [Option.map_some, Option.filter_some, tick_lt_tick]
      split <;> rfl

theorem edge_unit {now : Nat} (fits : guise.Fits (guise.tick now))
    (reckons : guise.FitsAll ((guise.unit unit).edgeReckons (guise.tick now))) :
    ((guise.unit unit).edge (guise.tick now)).1 = guise.unit (unit.edge now).1 ∧
      guise.Mirrors (unit.edge now).2 ((guise.unit unit).edge (guise.tick now)).2 := by
  have asked : (guise.unit unit).nextEdge ≠ some (guise.tick now) ↔ unit.nextEdge ≠ some now :=
    not_congr (guise.map_tick_eq_some now)
  unfold Coprocessor.edgeReckons at reckons
  unfold Coprocessor.edge
  simp only [asked] at reckons ⊢
  split
  · exact ⟨rfl, .none⟩
  · rename_i due
    rw [if_neg due] at reckons
    have begun : guise.Fits (unit.clock.cycleAt now * (guise.clock unit.clock).period) := by
      rw [mul_period_clock]
      exact fits.mono (tick_le_tick.mpr (Clock.cycleAt_mul_le now))
    have same : (guise.unit unit).clock.cycleAt (guise.tick now) = unit.clock.cycleAt now :=
      cycleAt_clock ..
    obtain ⟨retired, told⟩ := @retire_unit guise { unit with nextEdge := none } _ begun
    have cleared : { guise.unit unit with nextEdge := none } = guise.unit { unit with nextEdge := none } :=
      rfl
    unfold Coprocessor.settle at reckons
    simp only [same, cleared, retired, issueJobs_unit] at reckons ⊢
    rw [nextEdge?_unit reckons]
    generalize { unit with nextEdge := none }.retire (unit.clock.cycleAt now) = done at *
    cases (done.1.issueJobs (unit.clock.cycleAt now)).1.nextEdge? now with
    | none => exact ⟨rfl, (told.append ⟨[], rfl⟩).append .none⟩
    | some edge =>
      simp only [Option.map_some, requestEdge_unit, true_and]
      exact (told.append ⟨[], rfl⟩).append ⟨[], rfl⟩

variable (guise unit)

def unitSpec (spec : CoprocessorSpec) : CoprocessorSpec :=
  { spec with
    clock := guise.clock spec.clock
    verbose := guise.unitVerbosity spec.verbose }

theorem report_unit : (guise.unit unit).report = unit.report.map guise.record := by
  simp only [Coprocessor.report, List.map_cons, List.map_nil]
  repeat rw [record_of_ne guise (by decide)]
  rfl

end Guise

end CoreTiming
