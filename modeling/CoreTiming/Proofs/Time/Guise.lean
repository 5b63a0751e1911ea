import CoreTiming.Proofs.Time.Edges

namespace CoreTiming

structure Guise where
  timebase : Float
  /-- How many ticks of the finer timebase make one tick. -/
  factor : Nat
  factor_pos : 0 < factor
  statisticLevel : Nat
  /-- The verbosity of a core, from its number and its verbosity before. -/
  coreVerbosity : Nat → Nat → Nat
  unitVerbosity : Nat → Nat

namespace Guise

variable (guise : Guise)

def tick (tick : Nat) : Nat :=
  guise.factor * tick

def clock (clock : Clock) : Clock :=
  ⟨guise.factor * clock.period, Nat.mul_pos guise.factor_pos clock.period_pos⟩

/-- The horizon does not come between the two timebases at this tick of the finer one. -/
def Fits (tick : Nat) : Prop :=
  guise.factor = 1 ∨ tick ≤ horizon

/-- What lasts up to this cycle of a clock of the finer timebase is not cut at the last edge. -/
def Whole (clock : Clock) (last : Nat) : Prop :=
  guise.factor = 1 ∨ last ≤ clock.lastCycle

variable {guise}

theorem Fits.mono {earlier later : Nat} (fits : guise.Fits later) (order : earlier ≤ later) :
    guise.Fits earlier :=
  fits.imp_right (Nat.le_trans order)

theorem tick_le_tick {earlier later : Nat} : guise.tick earlier ≤ guise.tick later ↔ earlier ≤ later :=
  Nat.mul_le_mul_left_iff guise.factor_pos

theorem tick_lt_tick {earlier later : Nat} : guise.tick earlier < guise.tick later ↔ earlier < later :=
  Nat.mul_lt_mul_left guise.factor_pos

theorem tick_inj {one other : Nat} : guise.tick one = guise.tick other ↔ one = other :=
  Nat.mul_left_cancel_iff guise.factor_pos

variable (guise) in
@[simp] theorem tick_zero : guise.tick 0 = 0 :=
  Nat.mul_zero _

variable (guise) in
theorem tick_sub (later earlier : Nat) :
    guise.tick (later - earlier) = guise.tick later - guise.tick earlier :=
  Nat.mul_sub ..

variable (guise) in
theorem tick_min (one other : Nat) : guise.tick (min one other) = min (guise.tick one) (guise.tick other) :=
  Nat.mul_min_mul_left .. |>.symm

variable (guise) in
theorem tick_max (one other : Nat) : guise.tick (max one other) = max (guise.tick one) (guise.tick other) :=
  Nat.mul_max_mul_left .. |>.symm

variable (guise) in
theorem le_tick (tick : Nat) : tick ≤ guise.tick tick :=
  Nat.le_mul_of_pos_left _ guise.factor_pos

theorem Fits.le_horizon_iff {tick : Nat} (fits : guise.Fits (guise.tick tick)) :
    guise.tick tick ≤ horizon ↔ tick ≤ horizon := by
  rcases fits with same | within
  · unfold Guise.tick
    rw [same, Nat.one_mul]
  · exact iff_of_true within (Nat.le_trans (guise.le_tick tick) within)

theorem Fits.min_horizon {tick : Nat} (fits : guise.Fits (guise.tick tick)) :
    min (guise.tick tick) horizon = guise.tick (min tick horizon) := by
  rcases fits with same | within
  · unfold Guise.tick
    rw [same, Nat.one_mul, Nat.one_mul]
  · rw [Nat.min_eq_left within, Nat.min_eq_left (Nat.le_trans (guise.le_tick tick) within)]

variable (guise) (clock : Clock)

theorem mul_period_clock (cycle : Nat) :
    cycle * (guise.clock clock).period = guise.tick (cycle * clock.period) :=
  Nat.mul_left_comm ..

@[simp] theorem cycleAt_clock (tick : Nat) :
    (guise.clock clock).cycleAt (guise.tick tick) = clock.cycleAt tick :=
  Nat.mul_div_mul_left _ _ guise.factor_pos

@[simp] theorem cycleAtOrAfter_clock (tick : Nat) :
    (guise.clock clock).cycleAtOrAfter (guise.tick tick) = clock.cycleAtOrAfter tick := by
  apply Nat.le_antisymm
  · rw [Clock.cycleAtOrAfter_le_iff, mul_period_clock, tick_le_tick]
    exact clock.le_cycleAtOrAfter_mul tick
  · rw [Clock.cycleAtOrAfter_le_iff, ← tick_le_tick, ← mul_period_clock]
    exact (guise.clock clock).le_cycleAtOrAfter_mul _

theorem nextEdgeAfter_clock (tick : Nat) :
    (guise.clock clock).nextEdgeAfter (guise.tick tick) = guise.tick (clock.nextEdgeAfter tick) := by
  unfold Clock.nextEdgeAfter
  rw [cycleAt_clock, mul_period_clock]

variable {guise clock}

theorem tick?_clock {cycle : Nat} (fits : guise.Fits (cycle * (guise.clock clock).period)) :
    (guise.clock clock).tick? cycle = (clock.tick? cycle).map guise.tick := by
  rw [mul_period_clock] at fits
  unfold Clock.tick?
  rw [mul_period_clock]
  simp only [fits.le_horizon_iff]
  split <;> rfl

theorem tickOfCycle_clock {cycle : Nat} (fits : guise.Fits (cycle * (guise.clock clock).period)) :
    (guise.clock clock).tickOfCycle cycle = guise.tick (clock.tickOfCycle cycle) := by
  rw [mul_period_clock] at fits
  unfold Clock.tickOfCycle
  rw [mul_period_clock, fits.min_horizon]

theorem min_lastCycle_clock {cycle : Nat} (whole : guise.Whole (guise.clock clock) cycle) :
    min cycle (guise.clock clock).lastCycle = min cycle clock.lastCycle := by
  rcases whole with same | within
  · have unchanged : guise.clock clock = clock := by
      cases clock
      simp only [Guise.clock, same, Nat.one_mul]
    rw [unchanged]
  · have sooner : cycle ≤ clock.lastCycle := by
      rw [Clock.le_lastCycle_iff, mul_period_clock] at within
      exact Clock.le_lastCycle_iff.mpr (Nat.le_trans (guise.le_tick _) within)
    rw [Nat.min_eq_left within, Nat.min_eq_left sooner]

theorem edgeAfter?_clock {tick : Nat}
    (fits : guise.Fits ((guise.clock clock).nextEdgeAfter (guise.tick tick))) :
    (guise.clock clock).edgeAfter? (guise.tick tick) = (clock.edgeAfter? tick).map guise.tick := by
  unfold Clock.nextEdgeAfter at fits
  unfold Clock.edgeAfter?
  rw [tick?_clock fits, cycleAt_clock]

theorem edgeAtOrAfter?_clock {tick : Nat}
    (fits : guise.Fits ((guise.clock clock).firstEdge (guise.tick tick))) :
    (guise.clock clock).edgeAtOrAfter? (guise.tick tick) = (clock.edgeAtOrAfter? tick).map guise.tick := by
  unfold Clock.firstEdge at fits
  unfold Clock.edgeAtOrAfter?
  rw [tick?_clock fits, cycleAtOrAfter_clock]

theorem ticksAfter_clock {tick cycles : Nat}
    (fits : guise.Fits (guise.tick tick + cycles * (guise.clock clock).period)) :
    (guise.clock clock).ticksAfter (guise.tick tick) cycles = guise.tick (clock.ticksAfter tick cycles) := by
  have sum : guise.tick tick + cycles * (guise.clock clock).period =
      guise.tick (tick + cycles * clock.period) := by
    rw [mul_period_clock]
    exact (Nat.mul_add ..).symm
  rw [sum] at fits
  rw [Clock.ticksAfter_eq_min, Clock.ticksAfter_eq_min, sum, fits.min_horizon]

end Guise

end CoreTiming
