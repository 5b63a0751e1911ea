import CoreTiming.Proofs.Coprocessor.Steps

namespace CoreTiming

def Job.activity? (hasSlot : Bool) (cycle : Nat) (job : Job) : Option Nat :=
  match job.finishCycle with
  | some finish => some finish
  | none => if hasSlot then some (max job.readyCycle (addUpToHorizon cycle 1)) else none

namespace Coprocessor

variable {unit : Coprocessor} {now : Nat}

def hasSlot (unit : Coprocessor) : Bool :=
  unit.executing < unit.issueWidth

theorem nextActivity?_eq (unit : Coprocessor) (cycle : Nat) :
    unit.nextActivity? cycle = (unit.queue.filterMap (·.activity? unit.hasSlot cycle)).min? := by
  refine congrArg (fun view => (unit.queue.filterMap view).min?) ?_
  funext job
  unfold Job.activity? hasSlot
  cases job.finishCycle with
  | some finish => rfl
  | none => simp only [decide_eq_true_eq]

theorem nextEdge?_eq_some {tick : Nat} (found : unit.nextEdge? now = some tick) :
    now < tick ∧ tick ≤ horizon ∧ unit.clock.period ∣ tick := by
  unfold nextEdge? at found
  obtain ⟨active, later⟩ := Option.filter_eq_some_iff.mp found
  obtain ⟨cycle, -, ticked⟩ := Option.bind_eq_some_iff.mp active
  obtain ⟨rfl, bound⟩ := Clock.tick?_eq_some ticked
  exact ⟨of_decide_eq_true later, bound, Nat.dvd_mul_left ..⟩

theorem exists_nextEdge? {job : Job} {cycle : Nat} (member : job ∈ unit.queue)
    (active : job.activity? unit.hasSlot (unit.clock.cycleAt now) = some cycle)
    (near : cycle * unit.clock.period ≤ horizon)
    (later : ∀ other ∈ unit.queue, ∀ next,
      other.activity? unit.hasSlot (unit.clock.cycleAt now) = some next → unit.clock.cycleAt now < next) :
    ∃ tick, unit.nextEdge? now = some tick ∧ tick ≤ cycle * unit.clock.period := by
  have among : cycle ∈ unit.queue.filterMap (·.activity? unit.hasSlot (unit.clock.cycleAt now)) :=
    List.mem_filterMap.mpr ⟨job, member, active⟩
  cases least : (unit.queue.filterMap (·.activity? unit.hasSlot (unit.clock.cycleAt now))).min? with
  | none =>
    rw [List.min?_eq_none_iff.mp least] at among
    cases among
  | some next =>
    obtain ⟨found, minimal⟩ := List.min?_eq_some_iff.mp least
    have bound : next * unit.clock.period ≤ cycle * unit.clock.period :=
      Nat.mul_le_mul_right _ (minimal cycle among)
    obtain ⟨other, queued, comes⟩ := List.mem_filterMap.mp found
    have future : now < next * unit.clock.period := by
      have after := later other queued next comes
      by_contra passed
      have reached := Clock.le_cycleAt_iff.mpr (Nat.not_lt.mp passed)
      omega
    refine ⟨next * unit.clock.period, ?_, bound⟩
    unfold nextEdge?
    rw [nextActivity?_eq, least, Option.bind_some, Clock.tick?_of_le (Nat.le_trans bound near),
      Option.filter_some, if_pos (decide_eq_true future)]

end Coprocessor

end CoreTiming
