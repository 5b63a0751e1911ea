import CoreTiming.Proofs.Core.Tally
import CoreTiming.Proofs.Simulator.Separation
import CoreTiming.Proofs.Simulator.Turns

namespace CoreTiming

theorem Config.startAddress_lt_of_build {config : Config} {platform : Platform}
    (built : config.build = .ok platform) {index : Nat} {core : CoreSpec}
    (specified : platform.cores[index]? = some core) : core.startAddress < Nat.pow 2 core.isa.width.bits := by
  obtain ⟨clock, listed⟩ := exists_buildCores built
  have fits := (getElem?_buildCores listed specified).2.1
  have bound : core.startAddress ≤ Nat.pow 2 core.isa.width.bits - 1 := of_decide_eq_true fits
  have positive : 0 < Nat.pow 2 core.isa.width.bits := Nat.two_pow_pos _
  omega

theorem Core.working_ofSpec {spec : CoreSpec} (fits : spec.startAddress < Nat.pow 2 spec.isa.width.bits)
    (workload : Workload) (edge : Option Nat) :
    ({ Core.ofSpec spec workload with nextEdge := edge } : Core).Working spec workload 0 where
  isa := rfl
  stream := rfl
  pc := (Nat.mod_eq_of_lt fits).symm
  awake := rfl
  again := fun _ => rfl
  counted := rfl

namespace Simulator

variable {notes : Nat → Notes} {sim next : Simulator} {platform : Platform} {first : Simulator}
  {index : Nat} {spec : CoreSpec} {given : Workload}

def Tallied (spec : CoreSpec) (given : Workload) (index : Nat) (sim : Simulator) : Prop :=
  ∃ station taken, sim.stations[index]? = some station ∧
    station.core.Tallied spec given sim.timeline.log.toList taken

theorem Sound.tallied_step (sound : sim.Sound notes) {failed : Option Nat}
    (stepped : sim.step? = some (next, failed)) (tallied : sim.Tallied spec given index) :
    next.Tallied spec given index := by
  obtain ⟨station, taken, found, tallied⟩ := tallied
  obtain ⟨pending, queue, other, done, popped, included, receiver, delivered, rfl, -⟩ :=
    sound.step?_eq_some stepped
  have log : ((sim.withQueue queue).settle pending.event.core done).timeline.log.toList =
      sim.timeline.log.toList ++ done.effects.log := toList_log_apply ..
  by_cases own : pending.event.core = index
  · subst own
    obtain rfl : station = other := Option.some.inj (found.symm.trans receiver)
    have handles := sound.handles popped included receiver delivered
    obtain ⟨later, after⟩ := handles.takes.tallied_deliver tallied
    refine ⟨_, later, handles.left, ?_⟩
    rw [log, delivered]
    exact after
  · have passes := sound.passes popped included receiver delivered own
    refine ⟨station, taken, passes.station.trans found, tallied.mono ?_⟩
    rw [log]
    exact List.subset_append_left _ _

theorem Run.tallied (prepared : first.Prepared platform) (start : first.Tallied spec given index)
    (run : Run first notes sim) : sim.Tallied spec given index := by
  induction run with
  | start =>
    obtain ⟨station, taken, found, tallied⟩ := start
    refine ⟨station, taken, found, tallied.mono ?_⟩
    rw [show (first.apply _).timeline.log.toList = _ from toList_log_apply ..]
    exact List.subset_append_left _ _
  | next run stepped ih => exact (run.sound prepared).tallied_step stepped ih

theorem tallied_of_create (checked : platform.Sound) {workloads : List Workload}
    (created : create platform workloads = .ok first) (specified : platform.cores[index]? = some spec)
    (assigned : workloads[index]? = some given) (fits : spec.startAddress < Nat.pow 2 spec.isa.width.bits) :
    first.Tallied spec given index := by
  obtain ⟨station, found, view⟩ :=
    Option.map_eq_some_iff.mp (view?_of_create checked created specified assigned)
  have core : station.core = _ := congrArg (Station.core ∘ View.station) view
  refine ⟨station, 0, found, .inl ?_⟩
  rw [core]
  exact Core.working_ofSpec fits given (some 0)

/-- Between two events of a run a core has retired the operations that it has taken from its stream, or
    dropped them with a fault, but for the one in hand if there is one. A core that has halted may have left
    one undone, and only if its clock had no edge left. The program counter counts the operations taken. -/
theorem operations_accounted {config : Config} {platform : Platform} (built : config.build = .ok platform)
    {workloads : List Workload} {first : Simulator} (created : create platform workloads = .ok first)
    {index : Nat} {spec : CoreSpec} (specified : platform.cores[index]? = some spec) {given : Workload}
    (assigned : workloads[index]? = some given) (events : Nat) :
    ∃ station taken, (first.states events).2.stations[index]? = some station ∧
      given.after? taken = some station.core.workload ∧
      taken + station.core.workload.remaining = given.remaining ∧
      station.core.pc = (spec.startAddress + 4 * taken) % Nat.pow 2 spec.isa.width.bits ∧
      (station.core.isHalted = false →
        taken = station.core.counters.retired + station.core.counters.faults + station.core.inHand) ∧
      (station.core.isHalted = true →
        taken - 1 ≤ station.core.counters.retired + station.core.counters.faults ∧
        station.core.counters.retired + station.core.counters.faults ≤ taken ∧
        (station.core.counters.retired + station.core.counters.faults = taken ∨
          station.core.RanOut (first.states events).2.timeline.log.toList)) := by
  have checked := Config.sound_of_build built
  have start := tallied_of_create checked created specified assigned
    (Config.startAddress_lt_of_build built specified)
  obtain ⟨station, taken, found, working | stopped⟩ :=
    (run_states first events).tallied (prepared_of_create checked created) start
  · refine ⟨station, taken, found, working.stream, Workload.add_remaining_of_after? working.stream,
      working.pc, fun _ => working.counted.symm, fun halted => ?_⟩
    rw [working.awake] at halted
    cases halted
  · refine ⟨station, taken, found, stopped.stream, Workload.add_remaining_of_after? stopped.stream,
      stopped.pc, fun awake => ?_, fun _ => ?_⟩
    · rw [stopped.halted] at awake
      cases awake
    · rcases stopped.counted with counted | ⟨counted, ranOut⟩
      · exact ⟨by omega, by omega, .inl counted⟩
      · exact ⟨by omega, by omega, .inr ranOut⟩

theorem two_taken_in_burst : ∃ platform first station, twoClocks.build = .ok platform ∧
    create platform [twoClocksWorkload] = .ok first ∧ (first.states 4).2.stations[0]? = some station ∧
      station.core.workload.remaining = 1 ∧ station.core.inHand = 1 ∧
      2 = station.core.counters.retired + station.core.counters.faults + 1 ∧ station.core.pc = 8 := by
  obtain ⟨platform, built, spec, specified, address, width, first, created, station, found, awake, left,
      held⟩ : ∃ platform, twoClocks.build = .ok platform ∧ ∃ spec, platform.cores[0]? = some spec ∧
        spec.startAddress = 0 ∧ spec.isa.width = .w64 ∧
        ∃ first, create platform [twoClocksWorkload] = .ok first ∧
          ∃ station, (first.states 4).2.stations[0]? = some station ∧
            station.core.isHalted = false ∧ station.core.workload.remaining = 1 ∧
              station.core.inHand = 1 := by
    decide +kernel
  have assigned : [twoClocksWorkload][0]? = some twoClocksWorkload := rfl
  obtain ⟨same, taken, standing, -, whole, pc, counted, -⟩ :=
    operations_accounted built created specified assigned 4
  obtain rfl : station = same := Option.some.inj (found.symm.trans standing)
  have three : twoClocksWorkload.remaining = 3 := rfl
  obtain rfl : taken = 2 := by omega
  rw [address, width] at pc
  exact ⟨platform, first, station, built, created, found, left, held, held ▸ counted awake, pc⟩

end Simulator

end CoreTiming
