import CoreTiming.Proofs.Coprocessor.Effects
import CoreTiming.Proofs.Coprocessor.Readiness
import CoreTiming.Proofs.Coprocessor.Timeliness

namespace CoreTiming

/-- The same effects, but for the order of the log. -/
structure Effects.Alike (x y : Effects) : Prop where
  posts : x.posts = y.posts
  records : x.records = y.records
  log : x.log.Perm y.log

namespace Coprocessor

variable {submissions : List Submission} {unit : Coprocessor} {now handle : Nat}

def exchange (unit : Coprocessor) (queue : List Job) (done : List OffloadResult) (executed : Nat) :
    Coprocessor :=
  { unit with queue := queue, done := done, counters := { unit.counters with executed := executed } }

/-- An edge turns the jobs that end into results. All else that it does depends on those that stay. -/
theorem edge_exchange (due : unit.nextEdge = some now) {queue : List Job} {done : List OffloadResult}
    {executed : Nat} (staying : (unit.exchange queue done executed).staying now = unit.staying now) :
    ((unit.exchange queue done executed).edge now).1 = (unit.edge now).1.exchange (unit.edge now).1.queue
      (done ++ ((unit.exchange queue done executed).ending now).map unit.result)
      (executed + ((unit.exchange queue done executed).ending now).length) := by
  have dues : (unit.exchange queue done executed).nextEdge = some now := due
  have live : queue.filter (!·.finishedBy (unit.clock.cycleAt now)) =
      unit.queue.filter (!·.finishedBy (unit.clock.cycleAt now)) := staying
  rw [(edge_of_eq due).1, (edge_of_eq dues).1]
  simp only [exchange, ending, settle, retire, issueJobs, countExecuted, executing, nextEdge?, nextActivity?,
    live]
  rfl

theorem effects_exchange (due : unit.nextEdge = some now) {queue : List Job} {done : List OffloadResult}
    {executed : Nat} (staying : (unit.exchange queue done executed).staying now = unit.staying now) :
    ((unit.exchange queue done executed).edge now).2.posts = (unit.edge now).2.posts ∧
      ((unit.exchange queue done executed).edge now).2.records = (unit.edge now).2.records ∧
      ((unit.exchange queue done executed).edge now).2.log =
        ((unit.exchange queue done executed).ending now).flatMap
          fun job => (unit.completionLine job).log := by
  have dues : (unit.exchange queue done executed).nextEdge = some now := due
  refine ⟨?_, ?_, log_edge dues⟩
  · rw [posts_edge due, posts_edge dues, edge_exchange due staying]
    rfl
  · rw [records_edge due, records_edge dues, staying]
    rfl

theorem ready_of_edge (timely : unit.Timely now) (fits : ∀ job ∈ unit.queue, job.finishCycle = none →
    unit.clock.cycleAt now + job.duration ≤ horizon) (ready : (unit.edge now).1.Ready now handle) :
    unit.Ready now handle := by
  by_cases due : unit.nextEdge = some now
  · rcases ready with ⟨result, member, named, elapsed⟩ | ⟨job, member, named, finish, ends, -, elapsed⟩
    · rw [done_edge due] at member
      rcases List.mem_append.mp member with former | moved
      · exact .inl ⟨result, former, named, elapsed⟩
      · obtain ⟨job, finished, rfl⟩ := List.mem_map.mp moved
        obtain ⟨queued, finished⟩ := List.mem_filter.mp finished
        obtain ⟨finish, ends, reached⟩ := finishedBy_cycleAt_iff.mp finished
        have within := (timely.awaited now due).1
        exact .inr ⟨job, queued, named, finish, ends, Nat.le_trans reached within, reached⟩
    · -- what is in the queue after an edge ends later
      rw [(edge_of_eq due).1] at member elapsed
      have reached : finish ≤ unit.clock.cycleAt now := Clock.le_cycleAt_iff.mpr elapsed
      rcases mem_start member with live | ⟨waiting, live, idle, rfl⟩
      · have running := (List.mem_filter.mp live).2
        simp [Job.finishedBy, ends, reached] at running
      · have near := fits waiting (List.mem_filter.mp live).1 idle
        have long : 1 ≤ waiting.duration := Nat.le_max_right ..
        cases ends
        unfold addUpToHorizon at reached
        omega
  · rw [edge_of_ne due] at ready
    exact ready

/-- Asked for before and after an edge, an offload gives the same result and leaves the same unit. -/
def Overtakes (unit : Coprocessor) (now handle : Nat) (result : OffloadResult) : Prop :=
  ∃ after first last, unit.poll? handle now = some (result, after, first) ∧
    (unit.edge now).1.poll? handle now = some (result, (after.edge now).1, last) ∧
    (first ++ (after.edge now).2).Alike ((unit.edge now).2 ++ last)

theorem Consistent.overtakes (consistent : unit.Consistent submissions) (due : unit.nextEdge = some now)
    {result : OffloadResult} {queue : List Job} {done : List OffloadResult} {executed : Nat}
    {first : Effects}
    (polled : unit.poll? result.handle now = some (result, unit.exchange queue done executed, first))
    (staying : (unit.exchange queue done executed).staying now = unit.staying now)
    (kept : result ∈ (unit.edge now).1.done) (elapsed : result.completedAt ≤ now)
    (left : (unit.edge now).1.done.eraseP (·.handle = result.handle) =
      done ++ ((unit.exchange queue done executed).ending now).map unit.result)
    (counted : executed + ((unit.exchange queue done executed).ending now).length =
      unit.counters.executed + (unit.ending now).length)
    (told : (first.log ++ ((unit.exchange queue done executed).ending now).flatMap
      fun job => (unit.completionLine job).log).Perm
        ((unit.ending now).flatMap fun job => (unit.completionLine job).log)) :
    unit.Overtakes now result.handle result := by
  have last : (unit.edge now).1.poll? result.handle now = some (result,
      (unit.edge now).1.exchange (unit.edge now).1.queue
        ((unit.edge now).1.done.eraseP (·.handle = result.handle)) (unit.edge now).1.counters.executed,
      .none) :=
    (consistent.edge now).poll?_of_done kept elapsed
  obtain ⟨posts, records, log⟩ := effects_exchange due staying
  refine ⟨_, first, .none, polled, ?_, ?_, ?_, ?_⟩
  · rw [last, left, executed_edge due, ← counted, edge_exchange due staying]
  · rw [Effects.posts_append, (poll?_eq_some polled).1, posts]
    simp
  · rw [Effects.records_append, records_poll? polled, records]
    exact (List.append_nil _).symm
  · rw [Effects.log_append, log, Effects.log_append, log_edge due]
    exact told.trans (.of_eq (List.append_nil _).symm)

theorem Consistent.overtakes_done (consistent : unit.Consistent submissions)
    (due : unit.nextEdge = some now) {result : OffloadResult} (member : result ∈ unit.done)
    (elapsed : result.completedAt ≤ now) : unit.Overtakes now result.handle result := by
  apply consistent.overtakes due (consistent.poll?_of_done member elapsed)
  · rfl
  · rw [done_edge due]
    exact List.mem_append_left _ member
  · exact elapsed
  · rw [done_edge due]
    exact @List.eraseP_append_left _ _ result (decide_eq_true rfl) _ _ member
  · rfl
  · exact .refl _

theorem eraseP_handle {α : Type} {view : α → Nat} {item : α} {before : List α}
    (others : ∀ other ∈ before, view other ≠ view item) (behind : List α) :
    (before ++ item :: behind).eraseP (view · = view item) = before ++ behind := by
  rw [List.eraseP_append_right _ (by simpa using others), List.eraseP_cons_of_pos (by simp)]

theorem Consistent.split_queue (consistent : unit.Consistent submissions) {job : Job}
    (member : job ∈ unit.queue) : ∃ before behind, unit.queue = before ++ job :: behind ∧
      ∀ other ∈ before, other.handle ≠ job.handle := by
  obtain ⟨before, behind, split⟩ := List.append_of_mem member
  have sorted := consistent.sorted
  rw [split, List.map_append, List.map_cons] at sorted
  refine ⟨before, behind, split, fun other among => Nat.ne_of_lt ?_⟩
  exact (List.pairwise_append.mp sorted).2.2 _ (List.mem_map_of_mem among) _ List.mem_cons_self

theorem Consistent.overtakes_queue (consistent : unit.Consistent submissions) (timely : unit.Timely now)
    (due : unit.nextEdge = some now) {job : Job} {finish : Nat} (member : job ∈ unit.queue)
    (ends : job.finishCycle = some finish) (elapsed : finish * unit.clock.period ≤ now) :
    unit.Overtakes now job.handle (unit.result job) := by
  have finished : job.finishedBy (unit.clock.cycleAt now) = true :=
    finishedBy_cycleAt_iff.mpr ⟨finish, ends, elapsed⟩
  obtain ⟨before, behind, split, others⟩ := consistent.split_queue member
  have ended : unit.ending now = before.filter (·.finishedBy (unit.clock.cycleAt now)) ++
      job :: behind.filter (·.finishedBy (unit.clock.cycleAt now)) := by
    rw [ending, split, List.filter_append, List.filter_cons, if_pos finished]
  have others_end : (unit.exchange (before ++ behind) unit.done (unit.counters.executed + 1)).ending now =
      before.filter (·.finishedBy (unit.clock.cycleAt now)) ++
        behind.filter (·.finishedBy (unit.clock.cycleAt now)) := List.filter_append ..
  have missing : ∀ other ∈ unit.done ++
      (before.filter (·.finishedBy (unit.clock.cycleAt now))).map unit.result,
      other.handle ≠ (unit.result job).handle := by
    intro other among
    rcases List.mem_append.mp among with former | moved
    · exact ((List.nodup_append.mp consistent.distinct).2.2 _ (List.mem_map_of_mem member) _
        (List.mem_map_of_mem former)).symm
    · obtain ⟨earlier, first, rfl⟩ := List.mem_map.mp moved
      exact others earlier (List.mem_of_mem_filter first)
  have asked := consistent.poll?_of_queue member ends
    (Nat.le_trans elapsed (timely.awaited now due).1) elapsed
  rw [split, eraseP_handle others] at asked
  -- the poll takes the job from the queue, which the edge would have moved to the results
  apply @overtakes _ _ _ consistent due (unit.result job) (before ++ behind) unit.done
    (unit.counters.executed + 1) _ asked
  · show (before ++ behind).filter (!·.finishedBy (unit.clock.cycleAt now)) = unit.staying now
    rw [Coprocessor.staying, split]
    simp [finished]
  · rw [done_edge due]
    exact List.mem_append_right _ (List.mem_map_of_mem (List.mem_filter.mpr ⟨member, finished⟩))
  · exact Timely.completedAt_le finished
  · rw [done_edge due, ended, others_end, List.map_append, List.map_cons, ← List.append_assoc,
      eraseP_handle missing, List.append_assoc, List.map_append]
  · rw [ended, others_end]
    simp only [List.length_append, List.length_cons]
    omega
  · rw [ended, others_end, List.flatMap_append, List.flatMap_append, List.flatMap_cons]
    exact List.perm_append_comm_assoc ..

theorem Consistent.poll_edge (consistent : unit.Consistent submissions) (timely : unit.Timely now)
    (fits : ∀ job ∈ unit.queue, job.finishCycle = none →
      unit.clock.cycleAt now + job.duration ≤ horizon) (handle : Nat) :
    unit.poll? handle now = none ∧ (unit.edge now).1.poll? handle now = none ∨
      ∃ result, unit.Overtakes now handle result := by
  cases polled : unit.poll? handle now with
  | none =>
    refine .inl ⟨rfl, ?_⟩
    cases late : (unit.edge now).1.poll? handle now with
    | none => rfl
    | some found =>
      have ready := ready_of_edge timely fits (Coprocessor.ready_of_poll? late)
      exact absurd ready (consistent.not_ready_of_poll? polled)
  | some found =>
    obtain ⟨result, after, first⟩ := found
    refine .inr ⟨result, ?_⟩
    by_cases due : unit.nextEdge = some now
    · obtain ⟨-, ⟨member, rfl, elapsed, -⟩ | ⟨job, finish, member, rfl, ends, -, elapsed, rfl, -⟩⟩ :=
        poll?_eq_some polled
      · exact consistent.overtakes_done due member elapsed
      · exact consistent.overtakes_queue timely due member ends elapsed
    · have other : after.nextEdge ≠ some now := by
        obtain ⟨-, ⟨-, -, -, rfl⟩ | ⟨_, _, -, -, -, -, -, -, rfl⟩⟩ := poll?_eq_some polled
        · exact due
        · exact due
      refine ⟨after, first, first, polled, ?_, ?_⟩
      · rw [edge_of_ne due, edge_of_ne other, polled]
      · rw [edge_of_ne due, edge_of_ne other]
        refine ⟨?_, ?_, ?_⟩
        · simp
        · simp [Effects.none]
        · simp [Effects.none]

end Coprocessor

theorem Timeline.apply_append (timeline : Timeline) (x y : Effects) :
    (timeline.apply x).apply y = timeline.apply (x ++ y) := by
  obtain ⟨queue, sink, log⟩ := timeline
  have logged : log ++ x.log ++ y.log = log ++ (x ++ y).log := by
    apply Array.ext'
    simp
  simp only [apply, Sink.addAll, Effects.posts_append, Effects.records_append, List.foldl_append, logged]

namespace Bench.Trial

structure Alike (x y : Trial) : Prop where
  accepted : x.accepted = y.accepted
  returned : x.returned = y.returned
  unit : x.bench.unit = y.bench.unit
  queue : x.bench.timeline.queue = y.bench.timeline.queue
  sink : x.bench.timeline.sink = y.bench.timeline.sink
  log : x.bench.timeline.log.toList.Perm y.bench.timeline.log.toList

variable {owner : Nat} {spec : CoprocessorSpec} {sink : Sink} {actions : List Action} {trial : Trial}

/-- Whatever has been done with a coprocessor before: an edge and a poll at one tick can change places,
    if no job that waits would end past the last cycle. -/
theorem poll_overtakes_edge (reached : run owner spec sink actions = trial)
    (fits : ∀ job ∈ trial.bench.unit.queue, job.finishCycle = none →
      spec.clock.cycleAt trial.bench.now + job.duration ≤ horizon) (handle : Nat) :
    (trial.bench.poll? handle trial.bench.now).map Prod.fst =
        (trial.bench.edge.poll? handle trial.bench.now).map Prod.fst ∧
      ((trial.act (.poll handle trial.bench.now)).act .edge).Alike
        ((trial.act .edge).act (.poll handle trial.bench.now)) := by
  have kept : trial.Kept spec := reached ▸ kept_run actions
  have timely : trial.bench.unit.Timely trial.bench.now := reached ▸ timely_run actions
  rw [← kept.built.clock] at fits
  rcases kept.consistent.poll_edge timely fits handle with
    ⟨early, late⟩ | ⟨result, after, first, last, early, late, alike⟩
  · have missed : (trial.act .edge).act (.poll handle trial.bench.now) = trial.act .edge :=
      act_poll_of_none late
    rw [act_poll_of_none early, missed]
    refine ⟨?_, ⟨rfl, rfl, rfl, rfl, rfl, .refl _⟩⟩
    simp only [Bench.poll?, Bench.edge, early, late, Option.map_none]
  · have collected : (trial.act .edge).act (.poll handle trial.bench.now) = { trial with
        bench := ⟨(after.edge trial.bench.now).1,
          trial.bench.timeline.apply ((trial.bench.unit.edge trial.bench.now).2 ++ last)⟩
        returned := trial.returned ++ [(handle, result)] } := by
      rw [← Timeline.apply_append]
      exact act_poll late
    have same_now : Bench.now ⟨after, trial.bench.timeline.apply first⟩ = trial.bench.now :=
      Sound.now_apply ..
    rw [collected, act_poll early, act_edge, same_now, Timeline.apply_append]
    refine ⟨?_, ⟨rfl, rfl, rfl, ?_, ?_, ?_⟩⟩
    · simp only [Bench.poll?, Bench.edge, early, late, Option.map_some]
    · rw [Timeline.queue_apply, Timeline.queue_apply, alike.posts]
    · rw [Timeline.sink_apply, Timeline.sink_apply, alike.records]
    · rw [Timeline.log_apply, Timeline.log_apply, Array.toList_appendList, Array.toList_appendList]
      exact alike.log.append_left _

theorem poll_before_edge_at_six :
    ∃ trial, run 0 ⟨.ofPeriod 3, 2, .single, 1, 4⟩ { level := 5 }
        [.submit ⟨7, 2, [1]⟩, .submit ⟨8, 1, []⟩, .edge, .pop, .pop] = trial ∧ trial.bench.now = 6 ∧
      (trial.bench.edge.poll? 0 6).map Prod.fst = some ⟨0, 7, [1], 0, 6⟩ ∧
      ((trial.act (.poll 0 6)).act .edge).Alike ((trial.act .edge).act (.poll 0 6)) := by
  obtain ⟨trial, reached⟩ : ∃ trial, run 0 ⟨.ofPeriod 3, 2, .single, 1, 4⟩ { level := 5 }
      [.submit ⟨7, 2, [1]⟩, .submit ⟨8, 1, []⟩, .edge, .pop, .pop] = trial := ⟨_, rfl⟩
  have now : trial.bench.now = 6 := by
    rw [← reached]
    decide
  have early : (trial.bench.poll? 0 6).map Prod.fst = some ⟨0, 7, [1], 0, 6⟩ := by
    rw [← reached]
    decide
  have overtaken := poll_overtakes_edge reached (by rw [← reached]; decide) 0
  rw [now] at overtaken
  exact ⟨trial, reached, now, overtaken.1.symm.trans early, overtaken.2⟩

end Bench.Trial

end CoreTiming
