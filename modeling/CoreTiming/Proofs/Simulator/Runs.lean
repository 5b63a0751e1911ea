import CoreTiming.Proofs.Simulator.Creation

namespace CoreTiming.Simulator

/-- The states of a run between two events, with what the cores have noted. -/
inductive Run (first : Simulator) : (Nat → Notes) → Simulator → Prop
  | start : Run first (fun _ => {}) (first.apply (.line first.startLine))
  | next {notes sim after} (run : Run first notes sim) (stepped : sim.step? = some (after, none)) :
      Run first (noted notes sim after) after

variable {notes : Nat → Notes} {sim : Simulator} {platform : Platform} {first : Simulator}

theorem Run.sound (prepared : first.Prepared platform) (run : Run first notes sim) : sim.Sound notes := by
  induction run with
  | start => exact prepared.sound.apply_line first.startLine
  | next run stepped ih => exact (ih.step stepped).2

theorem Run.platform_eq (prepared : first.Prepared platform) (run : Run first notes sim) :
    sim.platform = platform := by
  induction run with
  | start => exact prepared.platform_eq
  | next run stepped ih =>
    obtain ⟨pending, queue, station, done, -, -, -, -, rfl, -⟩ :=
      (run.sound prepared).step?_eq_some stepped
    exact ih

theorem Run.exists_end (prepared : first.Prepared platform) (run : Run first notes sim) :
    ∃ later ended, Run first later ended ∧ ended.step? = none ∧ sim.advance = (ended, none) := by
  -- on the potential, which every event lowers
  induction size : sim.potential using Nat.strong_induction_on generalizing notes sim with
  | _ size ih =>
    cases stepped : sim.step? with
    | none =>
      refine ⟨notes, sim, run, stepped, ?_⟩
      rw [advance_eq, stepped]
    | some outcome =>
      obtain ⟨next, failed⟩ := outcome
      obtain ⟨rfl, -⟩ := (run.sound prepared).step stepped
      have less : next.potential < sim.potential := by
        obtain ⟨due, found, dispatched⟩ := Option.map_eq_some_iff.mp stepped
        exact potential_dispatch_due_lt found dispatched
      obtain ⟨later, ended, reached, elapsed, same⟩ := ih _ (size ▸ less) (run.next stepped) rfl
      refine ⟨later, ended, reached, elapsed, ?_⟩
      rw [advance_eq, stepped]
      exact same

theorem Prepared.exists_run (prepared : first.Prepared platform) :
    ∃ notes ended, Run first notes ended ∧ ended.step? = none ∧
      first.run = ({ ended with summary := some ended.ending }.apply (.line (ended.endLine ended.ending)),
        .ok ended.ending) := by
  obtain ⟨notes, ended, reached, elapsed, same⟩ := Run.exists_end prepared .start
  refine ⟨notes, ended, reached, elapsed, ?_⟩
  unfold run
  rw [prepared.summary]
  simp only [same]

theorem Prepared.drains (prepared : first.Prepared platform) (endless : platform.stop = .drain) :
    ∃ last summary, first.run = (last, .ok summary) ∧ summary.reason = .drained := by
  obtain ⟨notes, ended, reached, elapsed, same⟩ := prepared.exists_run
  refine ⟨_, _, same, ?_⟩
  have due : ended.due? = none := Option.map_eq_none_iff.mp elapsed
  have stop : ended.platform.stop = .drain := (reached.platform_eq prepared).symm ▸ endless
  unfold due? at due
  cases popped : ended.timeline.queue.pop? with
  | none =>
    unfold ending
    rw [Queue.pop?_eq_none popped]
    rfl
  | some outcome =>
    rw [popped, stop] at due
    cases due

def states (first : Simulator) : Nat → (Nat → Notes) × Simulator
  | 0 => (fun _ => {}, first.apply (.line first.startLine))
  | events + 1 =>
    match (first.states events).2.step? with
    | some (next, none) => (noted (first.states events).1 (first.states events).2 next, next)
    | _ => first.states events

theorem run_states (first : Simulator) (events : Nat) :
    Run first (first.states events).1 (first.states events).2 := by
  induction events with
  | zero => exact .start
  | succ events ih =>
    unfold states
    split
    · rename_i next stepped
      exact ih.next stepped
    · exact ih

instance {ε α : Type} (result : Except ε α) (holds : α → Prop) [∀ value, Decidable (holds value)] :
    Decidable (∃ value, result = .ok value ∧ holds value) :=
  match result with
  | .error _ => .isFalse fun ⟨_, same, _⟩ => by cases same
  | .ok value => decidable_of_iff (holds value)
      ⟨fun holds => ⟨value, rfl, holds⟩, fun ⟨_, same, holds⟩ => by cases same; exact holds⟩

instance {α : Type} (result : Option α) (holds : α → Prop) [∀ value, Decidable (holds value)] :
    Decidable (∃ value, result = some value ∧ holds value) :=
  match result with
  | none => .isFalse fun ⟨_, same, _⟩ => by cases same
  | some value => decidable_of_iff (holds value)
      ⟨fun holds => ⟨value, rfl, holds⟩, fun ⟨_, same, holds⟩ => by cases same; exact holds⟩

/-- A core at 1000 ticks a cycle, and its coprocessor at 700. -/
def twoClocks : Config where
  cpu := { machine := "[CORES:RV64I]", memoryCost := some "[CORES:1:4]", coprocessor := true }
  coprocessor := { clock := "700" }

def twoClocksWorkload : Workload :=
  .listed [.offload ⟨7, 3, [1]⟩, .compute 2, .halt]

def twoClocksCoprocessor : CoprocessorSpec :=
  ⟨.ofPeriod 700, 8, .single, 1, 0⟩

def twoClocksSubmission : Submission :=
  ⟨0, 0, ⟨7, 3, [1]⟩⟩

/-- The offload ends at tick 2100, during the burst, and the core halts at the end of it. -/
theorem exists_twoClocks : ∃ platform, twoClocks.build = .ok platform ∧
    platform.coprocessor = some twoClocksCoprocessor ∧ platform.stop = .drain ∧
    ∃ first, create platform [twoClocksWorkload] = .ok first ∧
      (∃ station, (first.states 4).2.stations[0]? = some station ∧ station.core.phase = .busy 3 ∧
        station.core.outstanding = [0] ∧ ∃ unit, station.coprocessor = some unit ∧
          unit.queue = [⟨0, ⟨7, 3, [1]⟩, 0, 0, some 3⟩] ∧ unit.clock = .ofPeriod 700) ∧
      ((first.states 4).1 0).submissions = [twoClocksSubmission] ∧ (first.states 4).2.now ≤ 2100 ∧
      (∃ station, (first.states 6).2.stations[0]? = some station ∧
        station.core.haltedAt = some 3000 ∧ station.core.clock = .ofPeriod 1000) ∧
      ((first.states 6).1 0).submissions = [twoClocksSubmission] ∧
      (first.states 6).2.step?.isNone = true := by
  decide +kernel

theorem bookings_twoClocks : (Service.ofSpec twoClocksCoprocessor).bookings [twoClocksSubmission] =
    [⟨twoClocksSubmission, 0⟩] := by
  have start : ((Service.ofSpec twoClocksCoprocessor).book [] twoClocksSubmission).start = 0 :=
    (@Service.start_of_single (.ofSpec twoClocksCoprocessor) rfl [] twoClocksSubmission).trans (by decide)
  exact congrArg (fun start => [Booking.mk twoClocksSubmission start]) start

end CoreTiming.Simulator
