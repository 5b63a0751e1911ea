import CoreTiming.Proofs.Coprocessor.Steps

namespace CoreTiming

@[simp] theorem Effects.records_append (x y : Effects) : (x ++ y).records = x.records ++ y.records := rfl

@[simp] theorem Effects.log_append (x y : Effects) : (x ++ y).log = x.log ++ y.log := rfl

@[simp] theorem Effects.records_lineIf (condition : Bool) (line : Log.Line) :
    (Effects.lineIf condition line).records = [] := by
  cases condition <;> rfl

namespace Coprocessor

variable {unit : Coprocessor} {now : Nat}

def ending (unit : Coprocessor) (now : Nat) : List Job :=
  unit.queue.filter (·.finishedBy (unit.clock.cycleAt now))

def staying (unit : Coprocessor) (now : Nat) : List Job :=
  unit.queue.filter (!·.finishedBy (unit.clock.cycleAt now))

theorem queue_edge (due : unit.nextEdge = some now) : (unit.edge now).1.queue =
    (start unit.issueWidth (unit.clock.cycleAt now) ((unit.staying now).countP Job.isExecuting)
      (unit.staying now)).1 := by
  rw [(edge_of_eq due).1]
  rfl

theorem done_edge (due : unit.nextEdge = some now) :
    (unit.edge now).1.done = unit.done ++ (unit.ending now).map unit.result := by
  rw [(edge_of_eq due).1]
  rfl

theorem executed_edge (due : unit.nextEdge = some now) :
    (unit.edge now).1.counters.executed = unit.counters.executed + (unit.ending now).length := by
  rw [(edge_of_eq due).1]
  rfl

theorem posts_edge (due : unit.nextEdge = some now) : (unit.edge now).2.posts =
    (unit.edge now).1.nextEdge.toList.map fun tick => (tick, .coprocessorEdge unit.owner) := by
  rw [(edge_of_eq due).2, (edge_of_eq due).1]

@[simp] theorem records_requestEdge (unit : Coprocessor) (tick : Nat) :
    (unit.requestEdge tick).2.records = [] := by
  unfold requestEdge
  split <;> rfl

@[simp] theorem log_requestEdge (unit : Coprocessor) (tick : Nat) : (unit.requestEdge tick).2.log = [] := by
  unfold requestEdge
  split <;> rfl

@[simp] theorem records_completionLine (unit : Coprocessor) (job : Job) :
    (unit.completionLine job).records = [] :=
  Effects.records_lineIf ..

theorem records_submit (unit : Coprocessor) (now : Nat) (work : Offload) :
    (unit.submit now work).2.2.records = [] := by
  unfold submit
  split
  · rfl
  · simp only
    split <;> simp

theorem records_poll? {handle : Nat} {result : OffloadResult} {after : Coprocessor} {effects : Effects}
    (polled : unit.poll? handle now = some (result, after, effects)) : effects.records = [] := by
  unfold poll? at polled
  split at polled
  · split at polled <;> cases polled
    rfl
  · obtain ⟨job, -, same⟩ := Option.map_eq_some_iff.mp polled
    cases same
    exact unit.records_completionLine job

theorem records_log_retire (unit : Coprocessor) (cycle : Nat) : (unit.retire cycle).2.records = [] ∧
    (unit.retire cycle).2.log =
      (unit.queue.filter (·.finishedBy cycle)).flatMap fun job => (unit.completionLine job).log := by
  have told : ∀ (jobs : List Job) (effects : Effects),
      (jobs.foldl (fun effects job => effects ++ unit.completionLine job) effects).records =
          effects.records ∧
        (jobs.foldl (fun effects job => effects ++ unit.completionLine job) effects).log =
          effects.log ++ jobs.flatMap fun job => (unit.completionLine job).log := by
    intro jobs
    induction jobs with
    | nil => simp
    | cons job jobs ih =>
      intro effects
      obtain ⟨records, log⟩ := ih (effects ++ unit.completionLine job)
      rw [List.foldl_cons, records, log]
      simp
  exact told _ .none

theorem records_edge (due : unit.nextEdge = some now) : (unit.edge now).2.records =
    (start unit.issueWidth (unit.clock.cycleAt now) ((unit.staying now).countP Job.isExecuting)
      (unit.staying now)).2.map fun duration => ⟨unit.name, .executionCycles, duration⟩ := by
  unfold edge
  rw [if_neg (by simpa using due)]
  simp only [Effects.records_append, (records_log_retire _ _).1, List.nil_append]
  split
  · rw [records_requestEdge, List.append_nil]
    rfl
  · exact List.append_nil _

theorem log_edge (due : unit.nextEdge = some now) : (unit.edge now).2.log =
    (unit.ending now).flatMap fun job => (unit.completionLine job).log := by
  have issued : ∀ (unit : Coprocessor) (cycle : Nat), (unit.issueJobs cycle).2.log = [] := fun _ _ => rfl
  unfold edge
  rw [if_neg (by simpa using due)]
  simp only [Effects.log_append, (records_log_retire _ _).2, issued, List.append_nil]
  split
  · rw [log_requestEdge, List.append_nil]
    rfl
  · exact List.append_nil _

theorem of_mem_records_edge {record : Record} (member : record ∈ (unit.edge now).2.records) :
    ∃ duration, record = ⟨unit.name, .executionCycles, duration⟩ := by
  by_cases due : unit.nextEdge = some now
  · rw [records_edge due] at member
    obtain ⟨duration, -, rfl⟩ := List.mem_map.mp member
    exact ⟨duration, rfl⟩
  · rw [edge_of_ne due] at member
    cases member

end Coprocessor

end CoreTiming
