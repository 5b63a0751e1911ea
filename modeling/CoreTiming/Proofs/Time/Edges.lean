import CoreTiming.Time.Clock

namespace CoreTiming.Clock

theorem ticksAfter_eq_min (clock : Clock) (tick cycles : Nat) :
    clock.ticksAfter tick cycles = min (tick + cycles * clock.period) horizon := by
  unfold ticksAfter addUpToHorizon
  omega

variable {clock : Clock}

theorem cycleAtOrAfter_le_iff {tick cycle : Nat} :
    clock.cycleAtOrAfter tick ≤ cycle ↔ tick ≤ cycle * clock.period := by
  have positive := clock.period_pos
  unfold cycleAtOrAfter
  rw [Nat.div_le_iff_le_mul_add_pred positive, Nat.mul_comm]
  omega

theorem le_cycleAt_iff {tick cycle : Nat} :
    cycle ≤ clock.cycleAt tick ↔ cycle * clock.period ≤ tick :=
  Nat.le_div_iff_mul_le clock.period_pos

theorem cycleAt_mul_le (tick : Nat) : clock.cycleAt tick * clock.period ≤ tick :=
  le_cycleAt_iff.mp (Nat.le_refl _)

/-- The tick of the first edge from `tick` on, wherever the horizon lies. -/
def firstEdge (clock : Clock) (tick : Nat) : Nat :=
  clock.cycleAtOrAfter tick * clock.period

theorem le_firstEdge (tick : Nat) : tick ≤ clock.firstEdge tick :=
  clock.le_cycleAtOrAfter_mul tick

theorem firstEdge_le_iff {tick cycle : Nat} :
    clock.firstEdge tick ≤ cycle * clock.period ↔ tick ≤ cycle * clock.period := by
  constructor
  · exact Nat.le_trans (le_firstEdge tick)
  · intro bound
    exact Nat.mul_le_mul_right _ (cycleAtOrAfter_le_iff.mpr bound)

theorem firstEdge_le_of_dvd {tick edge : Nat} (onEdge : clock.period ∣ edge) (bound : tick ≤ edge) :
    clock.firstEdge tick ≤ edge := by
  obtain ⟨cycle, rfl⟩ := onEdge
  rw [Nat.mul_comm] at bound ⊢
  exact firstEdge_le_iff.mpr bound

theorem period_dvd_firstEdge (tick : Nat) : clock.period ∣ clock.firstEdge tick :=
  Nat.dvd_mul_left ..

theorem tick?_of_le {cycle : Nat} (bound : cycle * clock.period ≤ horizon) :
    clock.tick? cycle = some (cycle * clock.period) :=
  if_pos bound

theorem tick?_eq_none {cycle : Nat} (none : clock.tick? cycle = none) :
    horizon < cycle * clock.period := by
  unfold tick? at none
  split at none
  · cases none
  · omega

theorem edgeAtOrAfter?_eq_some {tick edge : Nat} (found : clock.edgeAtOrAfter? tick = some edge) :
    edge = clock.firstEdge tick ∧ edge ≤ horizon :=
  tick?_eq_some found

theorem edgeAtOrAfter?_of_le {tick : Nat} (bound : clock.firstEdge tick ≤ horizon) :
    clock.edgeAtOrAfter? tick = some (clock.firstEdge tick) :=
  tick?_of_le bound

theorem edgeAtOrAfter?_eq_none {tick : Nat} (none : clock.edgeAtOrAfter? tick = none) :
    horizon < clock.firstEdge tick :=
  tick?_eq_none none

/-- The tick of the first edge after `tick`, wherever the horizon lies. -/
def nextEdgeAfter (clock : Clock) (tick : Nat) : Nat :=
  (clock.cycleAt tick + 1) * clock.period

theorem lt_nextEdgeAfter (tick : Nat) : tick < clock.nextEdgeAfter tick :=
  clock.lt_next_cycle tick

theorem period_dvd_nextEdgeAfter (tick : Nat) : clock.period ∣ clock.nextEdgeAfter tick :=
  Nat.dvd_mul_left ..

theorem nextEdgeAfter_le_firstEdge {earlier later : Nat} (ordered : earlier < later) :
    clock.nextEdgeAfter earlier ≤ clock.firstEdge later := by
  have before : ¬ clock.cycleAtOrAfter later ≤ clock.cycleAt earlier := by
    intro bound
    have reached := cycleAtOrAfter_le_iff.mp bound
    have passed : clock.cycleAt earlier * clock.period ≤ earlier := cycleAt_mul_le earlier
    omega
  exact Nat.mul_le_mul_right _ (by omega)

theorem edgeAfter?_eq_some {tick edge : Nat} (found : clock.edgeAfter? tick = some edge) :
    edge = clock.nextEdgeAfter tick ∧ edge ≤ horizon :=
  tick?_eq_some found

theorem edgeAfter?_eq_none {tick : Nat} (none : clock.edgeAfter? tick = none) :
    horizon < clock.nextEdgeAfter tick :=
  tick?_eq_none none

theorem edgeAfter?_of_edgeAtOrAfter? {tick : Nat} (none : clock.edgeAtOrAfter? tick = none) :
    clock.edgeAfter? tick = .none := by
  have late := edgeAtOrAfter?_eq_none none
  have sooner : clock.firstEdge tick ≤ clock.nextEdgeAfter tick :=
    firstEdge_le_of_dvd (period_dvd_nextEdgeAfter tick) (Nat.le_of_lt (lt_nextEdgeAfter tick))
  exact if_neg (Nat.not_le.mpr (Nat.lt_of_lt_of_le late sooner))

theorem tickOfCycle_of_le {cycle : Nat} (bound : cycle * clock.period ≤ horizon) :
    clock.tickOfCycle cycle = cycle * clock.period :=
  Nat.min_eq_left bound

theorem le_lastCycle_iff {cycle : Nat} :
    cycle ≤ clock.lastCycle ↔ cycle * clock.period ≤ horizon :=
  Nat.le_div_iff_mul_le clock.period_pos

theorem burst_end {cycle now : Nat} (edge : cycle * clock.period = now) (within : now ≤ horizon)
    (cycles : Nat) :
    now ≤ clock.tickOfCycle (min (cycle + cycles) clock.lastCycle) ∧
      clock.period ∣ clock.tickOfCycle (min (cycle + cycles) clock.lastCycle) := by
  have last : min (cycle + cycles) clock.lastCycle * clock.period ≤ horizon :=
    le_lastCycle_iff.mp (Nat.min_le_right ..)
  have begun : cycle ≤ min (cycle + cycles) clock.lastCycle :=
    Nat.le_min.mpr ⟨Nat.le_add_right .., le_lastCycle_iff.mpr (edge ▸ within)⟩
  rw [tickOfCycle_of_le last]
  exact ⟨edge ▸ Nat.mul_le_mul_right _ begun, Nat.dvd_mul_left ..⟩

end CoreTiming.Clock
