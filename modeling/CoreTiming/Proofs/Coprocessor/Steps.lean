import CoreTiming.Coprocessor.Weight
import CoreTiming.Proofs.Time.Edges
import Mathlib.Data.List.Basic
import Mathlib.Tactic.Common

namespace CoreTiming.Coprocessor

variable {unit : Coprocessor} {now : Nat}

theorem requestEdge_spec (unit : Coprocessor) (tick : Nat) :
    ∃ edge, (unit.requestEdge tick).1 = { unit with nextEdge := some edge } ∧ edge ≤ tick ∧
      (∀ old, unit.nextEdge = some old → edge ≤ old) ∧
      (unit.nextEdge = some edge ∧ (unit.requestEdge tick).2.posts = [] ∨
        edge = tick ∧ (unit.requestEdge tick).2.posts = [(tick, .coprocessorEdge unit.owner)]) := by
  unfold requestEdge
  cases asked : unit.nextEdge with
  | none =>
    refine ⟨tick, by simp, Nat.le_refl _, by simp, .inr ⟨rfl, by simp⟩⟩
  | some old =>
    by_cases early : old ≤ tick
    · refine ⟨old, ?_, early, by simp, .inl ⟨rfl, ?_⟩⟩
      · simp only [Option.any_some, early, decide_true, if_true]
        rw [← asked]
      · simp [early]
    · refine ⟨tick, by simp [early], Nat.le_refl _, ?_, .inr ⟨rfl, by simp [early]⟩⟩
      intro other same
      have : old = other := Option.some.inj same
      omega

theorem submit_of_full (full : unit.capacity ≤ unit.occupancy) (now : Nat) (work : Offload) :
    unit.submit now work = (.error ⟨unit.capacity⟩,
      { unit with counters := { unit.counters with rejected := unit.counters.rejected + 1 } },
      .none) :=
  if_pos full

theorem submit_of_room (room : ¬ unit.capacity ≤ unit.occupancy) (now : Nat) (work : Offload) :
    (unit.submit now work).1 = .ok unit.nextHandle ∧
      (horizon < unit.clock.firstEdge now ∧ (unit.submit now work).2.1 = unit.accept now work ∧
          (unit.submit now work).2.2.posts = [] ∨
        unit.clock.firstEdge now ≤ horizon ∧
          (unit.submit now work).2.1 =
            ((unit.accept now work).requestEdge (unit.clock.firstEdge now)).1 ∧
          (unit.submit now work).2.2.posts =
            ((unit.accept now work).requestEdge (unit.clock.firstEdge now)).2.posts) := by
  unfold submit
  rw [if_neg room]
  simp only
  cases found : unit.clock.tick? (unit.clock.cycleAtOrAfter now) with
  | none => exact ⟨rfl, .inl ⟨Clock.edgeAtOrAfter?_eq_none found, rfl, by simp⟩⟩
  | some edge =>
    obtain ⟨rfl, bound⟩ := Clock.edgeAtOrAfter?_eq_some found
    exact ⟨rfl, .inr ⟨bound, rfl, by simp⟩⟩

theorem poll?_eq_some {handle : Nat} {result : OffloadResult} {after : Coprocessor}
    {effects : Effects} (polled : unit.poll? handle now = some (result, after, effects)) :
    effects.posts = [] ∧
      (result ∈ unit.done ∧ result.handle = handle ∧ result.completedAt ≤ now ∧
          after = { unit with done := unit.done.eraseP (·.handle = handle) } ∨
        ∃ job finish, job ∈ unit.queue ∧ job.handle = handle ∧ job.finishCycle = some finish ∧
          finish * unit.clock.period ≤ horizon ∧ finish * unit.clock.period ≤ now ∧
          result = unit.result job ∧
          after = { unit with queue := unit.queue.eraseP (·.handle = handle) }.countExecuted 1) := by
  unfold poll? at polled
  cases kept : unit.done.find? (·.handle = handle) with
  | some found =>
    simp only [kept] at polled
    split at polled
    · rename_i ended
      cases polled
      have same := List.find?_some kept
      exact ⟨rfl, .inl ⟨List.mem_of_find?_eq_some kept, by simpa using same, ended, rfl⟩⟩
    · cases polled
  | none =>
    simp only [kept] at polled
    obtain ⟨job, found, same⟩ := Option.map_eq_some_iff.mp polled
    cases same
    have member := List.mem_of_find?_eq_some found
    have matched := List.find?_some found
    simp only [Bool.and_eq_true, decide_eq_true_eq, Option.any_eq_true] at matched
    obtain ⟨named, tick, elapsed, ended⟩ := matched
    obtain ⟨finish, finishes, ticked⟩ := Option.bind_eq_some_iff.mp elapsed
    obtain ⟨rfl, bound⟩ := Clock.tick?_eq_some ticked
    exact ⟨posts_completionLine .., .inr ⟨job, finish, member, named, finishes, bound, ended, rfl, rfl⟩⟩

theorem poll?_eq_none {handle : Nat} (polled : unit.poll? handle now = none) :
    (∀ result, unit.done.find? (·.handle = handle) = some result → now < result.completedAt) ∧
      (unit.done.find? (·.handle = handle) = none → unit.finishedJob? handle now = none) := by
  unfold poll? at polled
  cases kept : unit.done.find? (·.handle = handle) with
  | some found =>
    simp only [kept] at polled
    split at polled
    · cases polled
    · rename_i early
      exact ⟨fun result same => by cases same; omega, by simp⟩
  | none =>
    simp only [kept] at polled
    exact ⟨by simp, fun _ => Option.map_eq_none_iff.mp polled⟩

/-- The jobs after an edge: what is over has left, and what can start has started. -/
def settle (unit : Coprocessor) (cycle : Nat) : Coprocessor :=
  (({ unit with nextEdge := none }.retire cycle).1.issueJobs cycle).1

theorem finishedBy_cycleAt_iff {job : Job} : job.finishedBy (unit.clock.cycleAt now) = true ↔
    ∃ finish, job.finishCycle = some finish ∧ finish * unit.clock.period ≤ now := by
  simp only [Job.finishedBy, Option.any_eq_true, decide_eq_true_eq, Clock.le_cycleAt_iff]

theorem edge_of_ne (other : unit.nextEdge ≠ some now) : unit.edge now = (unit, .none) :=
  if_pos other

theorem edge_of_eq (due : unit.nextEdge = some now) :
    (unit.edge now).1 = { unit.settle (unit.clock.cycleAt now) with
        nextEdge := (unit.settle (unit.clock.cycleAt now)).nextEdge? now } ∧
      (unit.edge now).2.posts = ((unit.settle (unit.clock.cycleAt now)).nextEdge? now).toList.map
        fun tick => (tick, .coprocessorEdge unit.owner) := by
  have issued : ∀ (unit : Coprocessor) (cycle : Nat), (unit.issueJobs cycle).2.posts = [] :=
    fun _ _ => rfl
  unfold edge
  rw [if_neg (by simpa using due)]
  cases found : (unit.settle (unit.clock.cycleAt now)).nextEdge? now with
  | none =>
    unfold settle at found
    simp only [found]
    exact ⟨rfl, by simp [posts_retire, issued]⟩
  | some tick =>
    unfold settle at found
    simp only [found]
    refine ⟨rfl, ?_⟩
    rw [Effects.posts_append, Effects.posts_append, posts_retire, issued]
    rfl

theorem queue_settle (unit : Coprocessor) (cycle : Nat) :
    (unit.settle cycle).queue =
      (start unit.issueWidth cycle ((unit.queue.filter (!·.finishedBy cycle)).countP Job.isExecuting)
        (unit.queue.filter (!·.finishedBy cycle))).1 := rfl

theorem done_settle (unit : Coprocessor) (cycle : Nat) :
    (unit.settle cycle).done = unit.done ++ (unit.queue.filter (·.finishedBy cycle)).map unit.result := rfl

theorem executed_settle (unit : Coprocessor) (cycle : Nat) :
    (unit.settle cycle).counters.executed =
      unit.counters.executed + (unit.queue.filter (·.finishedBy cycle)).length := rfl

theorem start_cons {width cycle executing : Nat} {job : Job} (room : ¬ width ≤ executing)
    (waiting : job.finishCycle = none) (ready : ¬ cycle < job.readyCycle) (rest : List Job) :
    (start width cycle executing (job :: rest)).1 =
      { job with finishCycle := some (addUpToHorizon cycle job.duration) } ::
        (start width cycle (executing + 1) rest).1 := by
  rw [start, if_neg room, if_neg (by simp [Job.isExecuting, waiting]), if_neg ready]

theorem start_append {width cycle executing : Nat} {running : List Job}
    (begun : ∀ job ∈ running, job.isExecuting = true) (rest : List Job) :
    (start width cycle executing (running ++ rest)).1 =
      running ++ (start width cycle executing rest).1 := by
  by_cases full : width ≤ executing
  · have stopped : ∀ queue, (start width cycle executing queue).1 = queue := by
      intro queue
      cases queue with
      | nil => rfl
      | cons job queue => rw [start, if_pos full]
    rw [stopped, stopped]
  · induction running with
    | nil => rfl
    | cons job running ih =>
      have others := ih fun other member => begun other (by simp [member])
      rw [List.cons_append, start, if_neg full, if_pos (begun job (by simp))]
      exact congrArg (job :: ·) others

theorem mem_start {width cycle executing : Nat} {queue : List Job} {job : Job}
    (member : job ∈ (start width cycle executing queue).1) :
    job ∈ queue ∨ ∃ waiting ∈ queue, waiting.finishCycle = none ∧
      job = { waiting with finishCycle := some (addUpToHorizon cycle waiting.duration) } := by
  induction queue generalizing executing with
  | nil => cases member
  | cons next rest ih =>
    have behind : ∀ {executing : Nat}, job ∈ (start width cycle executing rest).1 →
        job ∈ next :: rest ∨ ∃ waiting ∈ next :: rest, waiting.finishCycle = none ∧
          job = { waiting with finishCycle := some (addUpToHorizon cycle waiting.duration) } := by
      intro executing among
      rcases ih among with former | ⟨waiting, queued, begun⟩
      · exact .inl (List.mem_cons_of_mem _ former)
      · exact .inr ⟨waiting, List.mem_cons_of_mem _ queued, begun⟩
    rw [start] at member
    split at member
    · exact .inl member
    · split at member
      · rcases List.mem_cons.mp member with rfl | among
        · exact .inl List.mem_cons_self
        · exact behind among
      · rename_i idle
        split at member
        · exact .inl member
        · rcases List.mem_cons.mp member with rfl | among
          · refine .inr ⟨next, List.mem_cons_self, ?_, rfl⟩
            simpa [Job.isExecuting] using idle
          · exact behind among

theorem mem_start_of_executing {width cycle executing : Nat} {queue : List Job} {job : Job}
    (member : job ∈ queue) (begun : job.isExecuting = true) :
    job ∈ (start width cycle executing queue).1 := by
  induction queue generalizing executing with
  | nil => cases member
  | cons next rest ih =>
    rw [start]
    split
    · exact member
    · split
      · rcases List.mem_cons.mp member with rfl | among
        · exact List.mem_cons_self
        · exact List.mem_cons_of_mem _ (ih among)
      · rename_i idle
        split
        · exact member
        · rcases List.mem_cons.mp member with rfl | among
          · exact absurd begun idle
          · exact List.mem_cons_of_mem _ (ih among)

theorem map_start {α : Type} {view : Job → α}
    (blind : ∀ (job : Job) (finish : Option Nat), view { job with finishCycle := finish } = view job)
    (width cycle executing : Nat) (queue : List Job) :
    (start width cycle executing queue).1.map view = queue.map view := by
  induction queue generalizing executing with
  | nil => rfl
  | cons job rest ih =>
    unfold start
    split
    · rfl
    · split
      · simp only [List.map_cons, ih]
      · split
        · rfl
        · simp only [List.map_cons, ih, blind]

end CoreTiming.Coprocessor
