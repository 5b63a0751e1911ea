import CoreTiming.Coprocessor
import CoreTiming.Timeline.Weight

namespace CoreTiming

namespace Coprocessor

theorem weight_requestEdge_le (unit : Coprocessor) (tick : Nat) :
    (unit.requestEdge tick).2.weight ≤ 2 * (horizon - tick) + 1 := by
  unfold requestEdge
  split
  · simp [Effects.weight]
  · simp [Effects.weight, Event.weight, Event.rank]

theorem weight_submit_le (unit : Coprocessor) (now : Nat) (work : Offload) :
    (unit.submit now work).2.2.weight ≤
      match (unit.submit now work).1 with
      | .ok _ => 2 * horizon + 1
      | .error _ => 0 := by
  unfold submit
  split
  · simp [Effects.weight]
  · simp only
    split
    · rename_i edge _
      have := weight_requestEdge_le (unit.accept now work) edge
      simp only [Effects.weight_append]
      rw [Effects.weight_of_posts (Effects.posts_lineIf ..)]
      omega
    · simp only [Effects.weight_of_posts (Effects.posts_lineIf ..)]
      omega

theorem posts_completionLine (unit : Coprocessor) (job : Job) :
    (unit.completionLine job).posts = [] :=
  Effects.posts_lineIf _ _

theorem posts_retire (unit : Coprocessor) (cycle : Nat) : (unit.retire cycle).2.posts = [] := by
  have posts : ∀ (jobs : List Job) (effects : Effects), effects.posts = [] →
      (jobs.foldl (fun effects job => effects ++ unit.completionLine job) effects).posts = [] := by
    intro jobs
    induction jobs with
    | nil => exact fun _ h => h
    | cons job jobs ih =>
      intro effects h
      exact ih _ (by simp [h, posts_completionLine])
  exact posts _ _ rfl

theorem lt_of_nextEdge? {unit : Coprocessor} {now edge : Nat} (h : unit.nextEdge? now = some edge) :
    now < edge ∧ edge ≤ horizon := by
  unfold nextEdge? at h
  obtain ⟨found, later⟩ := Option.filter_eq_some_iff.1 h
  obtain ⟨_, _, bounded⟩ := Option.bind_eq_some_iff.1 found
  exact ⟨of_decide_eq_true later, (Clock.tick?_eq_some bounded).2⟩

theorem weight_edge_le (unit : Coprocessor) (now : Nat) :
    (unit.edge now).2.weight ≤ 2 * (horizon - now) := by
  unfold edge
  split
  · simp [Effects.weight]
  · simp only [Effects.weight_append]
    rw [Effects.weight_of_posts (posts_retire _ _)]
    have issued : ∀ (unit : Coprocessor) (cycle : Nat), (unit.issueJobs cycle).2.weight = 0 :=
      fun _ _ => rfl
    rw [issued]
    split
    · rename_i tick found
      have bound := weight_requestEdge_le
        (({ unit with nextEdge := none }.retire (unit.clock.cycleAt now)).1.issueJobs
          (unit.clock.cycleAt now)).1 tick
      have later := lt_of_nextEdge? found
      omega
    · simp [Effects.weight]

end Coprocessor

end CoreTiming
