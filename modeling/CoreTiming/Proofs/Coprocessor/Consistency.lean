import CoreTiming.Proofs.Coprocessor.Service
import CoreTiming.Proofs.Coprocessor.Steps

namespace CoreTiming

def Job.submission (job : Job) : Submission :=
  ⟨job.handle, job.submittedAt, job.work⟩

def OffloadResult.Answers (result : OffloadResult) (submission : Submission) : Prop :=
  result.handle = submission.handle ∧ result.instruction = submission.work.instruction ∧
    result.payload = submission.work.payload ∧ result.submittedAt = submission.tick

namespace Coprocessor

def held (unit : Coprocessor) : List Nat :=
  unit.queue.map Job.handle ++ unit.done.map OffloadResult.handle

structure Consistent (submissions : List Submission) (unit : Coprocessor) : Prop where
  numbered : submissions.map Submission.handle = List.range unit.nextHandle
  accepted : unit.counters.submitted = unit.nextHandle
  executed : unit.counters.executed + unit.queue.length = unit.counters.submitted
  sorted : (unit.queue.map Job.handle).Pairwise (· < ·)
  distinct : unit.held.Nodup
  queued : ∀ job ∈ unit.queue, job.submission ∈ submissions
  finished : ∀ result ∈ unit.done, ∃ submission ∈ submissions, result.Answers submission

variable {submissions : List Submission} {unit : Coprocessor}

theorem consistent_ofSpec (owner : Nat) (spec : CoprocessorSpec) :
    (ofSpec owner spec).Consistent [] :=
  ⟨rfl, rfl, rfl, .nil, .nil, by simp [ofSpec], by simp [ofSpec]⟩

theorem Consistent.handle_lt (consistent : unit.Consistent submissions) {submission : Submission}
    (member : submission ∈ submissions) : submission.handle < unit.nextHandle := by
  have among : submission.handle ∈ submissions.map Submission.handle := List.mem_map_of_mem member
  rw [consistent.numbered] at among
  exact List.mem_range.mp among

theorem Consistent.held_lt (consistent : unit.Consistent submissions) {handle : Nat}
    (member : handle ∈ unit.held) : handle < unit.nextHandle := by
  rcases List.mem_append.mp member with among | among
  · obtain ⟨job, queued, rfl⟩ := List.mem_map.mp among
    exact consistent.handle_lt (consistent.queued job queued)
  · obtain ⟨result, finished, rfl⟩ := List.mem_map.mp among
    obtain ⟨submission, known, answers⟩ := consistent.finished result finished
    rw [answers.1]
    exact consistent.handle_lt known

theorem Consistent.withEdge (consistent : unit.Consistent submissions) (edge : Option Nat) :
    ({ unit with nextEdge := edge } : Coprocessor).Consistent submissions :=
  { consistent with }

theorem Consistent.refuse (consistent : unit.Consistent submissions) (rejected : Nat) :
    ({ unit with counters := { unit.counters with rejected := rejected } } : Coprocessor).Consistent
      submissions :=
  { consistent with }

theorem held_accept (unit : Coprocessor) (now : Nat) (work : Offload) :
    (unit.accept now work).held.Perm (unit.nextHandle :: unit.held) := by
  unfold held accept
  simp only [List.map_append, List.map_cons, List.map_nil, List.append_assoc, List.singleton_append]
  exact List.perm_middle

theorem Consistent.accept (consistent : unit.Consistent submissions) (now : Nat) (work : Offload) :
    (unit.accept now work).Consistent (submissions ++ [⟨unit.nextHandle, now, work⟩]) where
  numbered := by
    rw [List.map_append, consistent.numbered]
    exact List.range_succ.symm
  accepted := congrArg (· + 1) consistent.accepted
  executed := by
    have executed := consistent.executed
    simp only [Coprocessor.accept, List.length_append, List.length_cons, List.length_nil]
    omega
  sorted := by
    simp only [Coprocessor.accept, List.map_append, List.map_cons, List.map_nil]
    refine List.pairwise_append.mpr ⟨consistent.sorted, List.pairwise_singleton .., ?_⟩
    intro handle member last single
    rw [List.mem_singleton.mp single]
    exact consistent.held_lt (List.mem_append_left _ member)
  distinct := by
    rw [(held_accept unit now work).nodup_iff, List.nodup_cons]
    exact ⟨fun member => Nat.lt_irrefl _ (consistent.held_lt member), consistent.distinct⟩
  queued job member := by
    rcases List.mem_append.mp member with member | single
    · exact List.mem_append_left _ (consistent.queued job member)
    · rw [List.mem_singleton.mp single]
      exact List.mem_append_right _ (List.mem_singleton_self _)
  finished result member := by
    obtain ⟨submission, known, answers⟩ := consistent.finished result member
    exact ⟨submission, List.mem_append_left _ known, answers⟩

theorem submit_of_room_eq (room : ¬ unit.capacity ≤ unit.occupancy) (now : Nat) (work : Offload) :
    ∃ edge, (unit.submit now work).2.1 = { unit.accept now work with nextEdge := edge } := by
  rcases (submit_of_room room now work).2 with ⟨-, same, -⟩ | ⟨-, same, -⟩
  · exact ⟨_, same⟩
  · obtain ⟨edge, requested, -⟩ := requestEdge_spec (unit.accept now work) (unit.clock.firstEdge now)
    exact ⟨some edge, same.trans requested⟩

theorem held_submit (unit : Coprocessor) (now : Nat) (work : Offload) :
    (∃ refusal, (unit.submit now work).1 = .error refusal ∧
        (unit.submit now work).2.1.held = unit.held) ∨
      (unit.submit now work).1 = .ok unit.nextHandle ∧
        (unit.submit now work).2.1.held.Perm (unit.nextHandle :: unit.held) := by
  by_cases full : unit.capacity ≤ unit.occupancy
  · rw [submit_of_full full]
    exact .inl ⟨_, rfl, rfl⟩
  · obtain ⟨edge, same⟩ := submit_of_room_eq full now work
    rw [same]
    exact .inr ⟨(submit_of_room full now work).1, held_accept unit now work⟩

theorem perm_eraseP_handle {α : Type} {view : α → Nat} {list : List α} {item : α}
    (member : item ∈ list) :
    (list.map view).Perm (view item :: (list.eraseP (view · = view item)).map view) := by
  obtain ⟨erased, before, after, -, same, rfl, shorter⟩ :=
    @List.exists_of_eraseP _ (view · = view item) list item member (by simp)
  rw [shorter, List.map_append, List.map_append, List.map_cons, of_decide_eq_true same]
  exact List.perm_middle

theorem answers_result (unit : Coprocessor) (job : Job) : (unit.result job).Answers job.submission :=
  ⟨rfl, rfl, rfl, rfl⟩

theorem Consistent.poll (consistent : unit.Consistent submissions) {handle now : Nat}
    {result : OffloadResult} {after : Coprocessor} {effects : Effects}
    (polled : unit.poll? handle now = some (result, after, effects)) :
    after.Consistent submissions ∧ unit.held.Perm (handle :: after.held) ∧
      (∃ submission ∈ submissions, result.Answers submission) ∧ result.handle = handle := by
  obtain ⟨-, ⟨kept, rfl, -, rfl⟩ | ⟨job, finish, member, rfl, -, -, -, rfl, rfl⟩⟩ := poll?_eq_some polled
  · have taken : unit.held.Perm (result.handle ::
        ({ unit with done := unit.done.eraseP (·.handle = result.handle) } : Coprocessor).held) := by
      refine (List.Perm.append_left _ (perm_eraseP_handle kept)).trans ?_
      exact List.perm_middle
    refine ⟨{ consistent with distinct := ?_, finished := ?_ }, taken, consistent.finished _ kept, rfl⟩
    · exact (List.nodup_cons.mp (taken.nodup_iff.mp consistent.distinct)).2
    · intro other remaining
      exact consistent.finished other (List.mem_of_mem_eraseP remaining)
  · have taken : unit.held.Perm (job.handle ::
        ({ unit with queue := unit.queue.eraseP (·.handle = job.handle) } : Coprocessor).held) :=
      List.Perm.append_right _ (perm_eraseP_handle member)
    have shorter : (unit.queue.eraseP (·.handle = job.handle)).length + 1 = unit.queue.length := by
      have lengths := (@perm_eraseP_handle _ Job.handle _ _ member).length_eq
      simpa using lengths.symm
    refine ⟨⟨consistent.numbered, consistent.accepted, ?_, ?_, ?_, ?_, consistent.finished⟩, taken, ?_, rfl⟩
    · have executed := consistent.executed
      simp only [countExecuted]
      omega
    · exact consistent.sorted.sublist (List.Sublist.map _ List.eraseP_sublist)
    · exact (List.nodup_cons.mp (taken.nodup_iff.mp consistent.distinct)).2
    · intro other remaining
      exact consistent.queued other (List.mem_of_mem_eraseP remaining)
    · exact ⟨_, consistent.queued job member, answers_result unit job⟩

theorem held_settle (unit : Coprocessor) (cycle : Nat) : (unit.settle cycle).held.Perm unit.held := by
  unfold held
  rw [queue_settle, map_start fun _ _ => rfl, done_settle, List.map_append, List.map_map]
  have split := (List.filter_append_perm (fun job : Job => !job.finishedBy cycle) unit.queue).map Job.handle
  simp only [Bool.not_not, List.map_append] at split
  have renamed : OffloadResult.handle ∘ unit.result = Job.handle := rfl
  rw [renamed]
  refine .trans ?_ (split.append_right _)
  rw [List.append_assoc]
  exact List.Perm.append_left _ List.perm_append_comm

theorem map_submission_settle (unit : Coprocessor) (cycle : Nat) :
    (unit.settle cycle).queue.map Job.submission =
      (unit.queue.filter (!·.finishedBy cycle)).map Job.submission := by
  rw [queue_settle, map_start fun _ _ => rfl]

theorem Consistent.settle (consistent : unit.Consistent submissions) (cycle : Nat) :
    (unit.settle cycle).Consistent submissions where
  numbered := consistent.numbered
  accepted := consistent.accepted
  executed := by
    have executed := consistent.executed
    have remaining := congrArg List.length (map_submission_settle unit cycle)
    have split := List.length_eq_length_filter_add (l := unit.queue) (·.finishedBy cycle)
    rw [List.length_map, List.length_map] at remaining
    rw [executed_settle, remaining, Nat.add_assoc, ← split]
    exact executed
  sorted := by
    rw [queue_settle, map_start fun _ _ => rfl]
    exact consistent.sorted.sublist (List.Sublist.map _ List.filter_sublist)
  distinct := (held_settle unit cycle).nodup_iff.mpr consistent.distinct
  queued job member := by
    have moved : job.submission ∈ (unit.settle cycle).queue.map Job.submission :=
      List.mem_map_of_mem member
    rw [map_submission_settle] at moved
    obtain ⟨former, remaining, same⟩ := List.mem_map.mp moved
    rw [← same]
    exact consistent.queued former (List.mem_of_mem_filter remaining)
  finished result member := by
    rw [done_settle] at member
    rcases List.mem_append.mp member with member | moved
    · exact consistent.finished result member
    · obtain ⟨job, finished, rfl⟩ := List.mem_map.mp moved
      exact ⟨_, consistent.queued job (List.mem_of_mem_filter finished), answers_result unit job⟩

theorem Consistent.edge (consistent : unit.Consistent submissions) (now : Nat) :
    (unit.edge now).1.Consistent submissions := by
  by_cases due : unit.nextEdge = some now
  · rw [(edge_of_eq due).1]
    exact (consistent.settle (unit.clock.cycleAt now)).withEdge _
  · rw [edge_of_ne due]
    exact consistent

theorem held_edge (unit : Coprocessor) (now : Nat) : (unit.edge now).1.held.Perm unit.held := by
  by_cases due : unit.nextEdge = some now
  · rw [(edge_of_eq due).1]
    exact held_settle unit (unit.clock.cycleAt now)
  · rw [edge_of_ne due]

end Coprocessor

end CoreTiming
