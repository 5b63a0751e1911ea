import CoreTiming.Proofs.Time.Edges
import Mathlib.Order.Bounds.Basic

namespace CoreTiming.Clock

variable {clock : Clock} {tick cycle : Nat}

theorem cycleAtOrAfter_le_self (clock : Clock) (tick : Nat) : clock.cycleAtOrAfter tick ≤ tick :=
  cycleAtOrAfter_le_iff.mpr (Nat.le_mul_of_pos_right tick clock.period_pos)

theorem tick?_eq_some_iff : clock.tick? cycle = some (cycle * clock.period) ↔ cycle ≤ clock.lastCycle := by
  rw [le_lastCycle_iff]
  constructor
  · intro found
    exact (tick?_eq_some found).2
  · exact tick?_of_le

theorem tick?_eq_none_iff : clock.tick? cycle = none ↔ horizon < cycle * clock.period := by
  constructor
  · exact tick?_eq_none
  · intro late
    exact if_neg (Nat.not_le.mpr late)

theorem isLeast_firstEdge (clock : Clock) (tick : Nat) :
    IsLeast {edge | clock.period ∣ edge ∧ tick ≤ edge} (clock.firstEdge tick) := by
  refine ⟨⟨period_dvd_firstEdge tick, le_firstEdge tick⟩, ?_⟩
  rintro edge ⟨onEdge, bound⟩
  exact firstEdge_le_of_dvd onEdge bound

theorem nextEdgeAfter_eq (clock : Clock) (tick : Nat) : clock.nextEdgeAfter tick = clock.firstEdge (tick + 1) := by
  apply Nat.le_antisymm
  · exact nextEdgeAfter_le_firstEdge (Nat.lt_succ_self tick)
  · exact firstEdge_le_of_dvd (period_dvd_nextEdgeAfter tick) (lt_nextEdgeAfter tick)

theorem isLeast_nextEdgeAfter (clock : Clock) (tick : Nat) :
    IsLeast {edge | clock.period ∣ edge ∧ tick < edge} (clock.nextEdgeAfter tick) := by
  rw [nextEdgeAfter_eq]
  exact isLeast_firstEdge clock (tick + 1)

/-- For every period, where zero counts as one, every tick and every cycle: cycles are rounded as the order of
    edges says and are no greater than their tick, an edge is found if and only if it is within the horizon,
    none is skipped, and what would pass the horizon ends there. -/
theorem exact_up_to_horizon (period tick cycle : Nat) :
    let clock := ofPeriod period
    let p := if period = 0 then 1 else period
    clock.period = p ∧
    (clock.cycleAtOrAfter tick ≤ cycle ↔ tick ≤ cycle * p) ∧
    (cycle ≤ clock.cycleAt tick ↔ cycle * p ≤ tick) ∧
    clock.cycleAtOrAfter tick ≤ tick ∧ clock.cycleAt tick ≤ tick ∧
    (clock.tick? cycle = some (cycle * p) ↔ cycle ≤ clock.lastCycle) ∧
    (clock.tick? cycle = none ↔ horizon < cycle * p) ∧
    (cycle ≤ clock.lastCycle ↔ cycle * p ≤ horizon) ∧
    clock.tickOfCycle cycle = min (cycle * p) horizon ∧
    (∃ edge, IsLeast {edge | p ∣ edge ∧ tick ≤ edge} edge ∧
      clock.edgeAtOrAfter? tick = if edge ≤ horizon then some edge else none) ∧
    (∃ edge, IsLeast {edge | p ∣ edge ∧ tick < edge} edge ∧
      clock.edgeAfter? tick = if edge ≤ horizon then some edge else none) ∧
    clock.ticksAfter tick cycle = min (tick + cycle * p) horizon := by
  intro clock p
  have same : clock.period = p := by
    show max period 1 = if period = 0 then 1 else period
    split <;> omega
  rw [← same]
  have below : clock.cycleAt tick ≤ tick := Nat.div_le_self ..
  have found : clock.edgeAtOrAfter? tick =
    if clock.firstEdge tick ≤ horizon then some (clock.firstEdge tick) else none := rfl
  have next : clock.edgeAfter? tick =
    if clock.nextEdgeAfter tick ≤ horizon then some (clock.nextEdgeAfter tick) else none := rfl
  exact ⟨rfl, cycleAtOrAfter_le_iff, le_cycleAt_iff, cycleAtOrAfter_le_self clock tick, below,
    tick?_eq_some_iff, tick?_eq_none_iff, le_lastCycle_iff, rfl, ⟨_, isLeast_firstEdge clock tick, found⟩,
    ⟨_, isLeast_nextEdgeAfter clock tick, next⟩, ticksAfter_eq_min clock tick cycle⟩

example : (ofPeriod 3).edgeAtOrAfter? horizon = some horizon ∧ (ofPeriod 3).edgeAfter? horizon = none ∧
    (ofPeriod 2).edgeAtOrAfter? horizon = none ∧ (ofPeriod 2).edgeAfter? (horizon - 1) = none := by
  decide

end CoreTiming.Clock
