namespace CoreTiming

/-- The last tick there is. `tick?` knows no edge past it, where `tickOfCycle` stops at it. -/
def horizon : Nat := 0xFFFFFFFFFFFFFFFF

def addUpToHorizon (a b : Nat) : Nat :=
  min (a + b) horizon

structure Clock where
  period : Nat
  period_pos : 0 < period
  deriving DecidableEq, Repr

namespace Clock

def ofPeriod (period : Nat) : Clock :=
  ⟨max period 1, by omega⟩

def cycleAtOrAfter (clock : Clock) (tick : Nat) : Nat :=
  (tick + (clock.period - 1)) / clock.period

def cycleAt (clock : Clock) (tick : Nat) : Nat :=
  tick / clock.period

def tickOfCycle (clock : Clock) (cycle : Nat) : Nat :=
  min (cycle * clock.period) horizon

def tick? (clock : Clock) (cycle : Nat) : Option Nat :=
  if cycle * clock.period ≤ horizon then some (cycle * clock.period) else none

def lastCycle (clock : Clock) : Nat :=
  horizon / clock.period

def edgeAtOrAfter? (clock : Clock) (tick : Nat) : Option Nat :=
  clock.tick? (clock.cycleAtOrAfter tick)

def edgeAfter? (clock : Clock) (tick : Nat) : Option Nat :=
  clock.tick? (clock.cycleAt tick + 1)

def ticksAfter (clock : Clock) (tick : Nat) (cycles : Nat) : Nat :=
  addUpToHorizon tick (min (cycles * clock.period) horizon)

theorem tick?_eq_some {clock : Clock} {cycle : Nat} {tick : Nat}
    (h : clock.tick? cycle = some tick) : tick = cycle * clock.period ∧ tick ≤ horizon := by
  unfold tick? at h
  split at h
  · cases h; exact ⟨rfl, by assumption⟩
  · cases h

theorem lt_next_cycle (clock : Clock) (tick : Nat) :
    tick < (clock.cycleAt tick + 1) * clock.period :=
  Nat.lt_mul_of_div_lt (Nat.lt_succ_self _) clock.period_pos

theorem le_cycleAtOrAfter_mul (clock : Clock) (tick : Nat) :
    tick ≤ clock.cycleAtOrAfter tick * clock.period := by
  have positive := clock.period_pos
  have parts := Nat.div_add_mod (tick + (clock.period - 1)) clock.period
  have small := Nat.mod_lt (tick + (clock.period - 1)) positive
  rw [Nat.mul_comm] at parts
  unfold cycleAtOrAfter
  omega

theorem lt_of_edgeAfter? {clock : Clock} {tick edge : Nat} (h : clock.edgeAfter? tick = some edge) :
    tick < edge ∧ edge ≤ horizon := by
  obtain ⟨same, bounded⟩ := tick?_eq_some h
  exact ⟨same ▸ clock.lt_next_cycle tick, bounded⟩

theorem le_of_edgeAtOrAfter? {clock : Clock} {tick edge : Nat}
    (h : clock.edgeAtOrAfter? tick = some edge) : tick ≤ edge ∧ edge ≤ horizon := by
  obtain ⟨same, bounded⟩ := tick?_eq_some h
  exact ⟨same ▸ clock.le_cycleAtOrAfter_mul tick, bounded⟩

theorem tickOfCycle_le_horizon (clock : Clock) (cycle : Nat) : clock.tickOfCycle cycle ≤ horizon :=
  Nat.min_le_right _ _

end Clock

end CoreTiming
