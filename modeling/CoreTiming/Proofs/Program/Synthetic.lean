import CoreTiming.Program.Loader
import CoreTiming.Proofs.Config.Validity
import Mathlib.Algebra.GroupWithZero.Nat

namespace CoreTiming

theorem Random.Generator.below_lt {width limit : Nat} (bounded : width ≤ 64) (positive : 0 < limit)
    (fits : limit ≤ Nat.pow 2 width) (g : Generator) : (g.below width limit).1 < limit := by
  have bounds := g.between_bounds bounded (Nat.zero_le (limit - 1)) (by omega)
  unfold below
  omega

def Operation.offload? : Operation → Option Offload
  | .offload work => some work
  | _ => none

namespace Mix

def total (mix : Mix) : Nat :=
  mix.load + mix.store + mix.compute + mix.offload

def inEffect (mix : Mix) (offloads : Bool) : Mix :=
  { mix with
    longestCompute := max mix.longestCompute 1
    offload := if offloads then mix.offload else 0 }

/-- What a mix can yield in a memory of some size. Only a mix without any weight yields something that
    has none, which is a burst of one cycle. -/
def Yields (mix : Mix) (size : Nat) : Operation → Prop
  | .load address => 0 < mix.load ∧ 8 ∣ address ∧ address < size
  | .store address => 0 < mix.store ∧ 8 ∣ address ∧ address < size
  | .compute cycles =>
    0 < mix.compute ∧ 1 ≤ cycles ∧ cycles ≤ mix.longestCompute ∨ mix.total = 0 ∧ cycles = 1
  | .offload work => 0 < mix.offload ∧ work.cycles = mix.offloadCycles ∧ work.payload = []
  | .wait | .halt => False

end Mix

namespace Synthetic

variable {s after : Synthetic} {size : Nat}

structure Ready (size : Nat) (s : Synthetic) : Prop where
  nonempty : 0 < size
  span : s.span ≤ size
  memory : size ≤ horizon
  compute : 1 ≤ s.mix.longestCompute
  word : s.mix.longestCompute ≤ horizon
  weights : s.mix.total < Nat.pow 2 32
  instruction : s.nextInstruction < 0x100000000

theorem address_bounds (ready : s.Ready size) : 8 ∣ s.address.1 ∧ s.address.1 < size := by
  unfold address
  simp only
  split
  · exact ⟨⟨0, rfl⟩, ready.nonempty⟩
  · rename_i slots
    have positive : 0 < s.span / alignment := Nat.pos_of_ne_zero slots
    have words : Nat.pow 2 64 = horizon + 1 := rfl
    have fits : s.span / alignment ≤ Nat.pow 2 64 := by
      have shorter := Nat.div_le_self s.span alignment
      have span := ready.span
      have memory := ready.memory
      omega
    have drawn := s.generator.below_lt (Nat.le_refl 64) positive fits
    have slot := Nat.mul_lt_mul_of_pos_right drawn (show 0 < alignment by decide)
    have inside := Nat.div_mul_le_self s.span alignment
    exact ⟨⟨_, Nat.mul_comm ..⟩, Nat.lt_of_lt_of_le slot (Nat.le_trans inside ready.span)⟩

theorem exists_weight_of_kindAt {position : Nat} {weights : List (Nat × Kind)}
    (inside : position < (weights.map Prod.fst).sum) :
    ∃ weight, 0 < weight ∧ (weight, kindAt position weights) ∈ weights := by
  induction weights generalizing position with
  | nil => exact absurd inside (Nat.not_lt_zero _)
  | cons entry rest ih =>
    obtain ⟨weight, kind⟩ := entry
    unfold kindAt
    split
    · rename_i before
      exact ⟨weight, Nat.lt_of_le_of_lt (Nat.zero_le _) before, List.mem_cons_self ..⟩
    · rename_i behind
      rw [List.map_cons, List.sum_cons] at inside
      obtain ⟨other, positive, member⟩ := @ih (position - weight) (by omega)
      exact ⟨other, positive, List.mem_cons_of_mem _ member⟩

theorem operation_after (s : Synthetic) (kind : Kind) : ∃ generator, (s.operation kind).2 = { s with
    generator := generator
    nextInstruction := match kind with
      | .offload => (s.nextInstruction + 1) % 0x100000000
      | _ => s.nextInstruction } := by
  have drawn : ∃ generator, s.address.2 = { s with generator := generator } := by
    unfold address
    simp only
    split
    · exact ⟨s.generator, rfl⟩
    · exact ⟨_, rfl⟩
  cases kind with
  | load | store => exact drawn
  | compute | offload => exact ⟨_, rfl⟩

theorem offload?_operation (s : Synthetic) (kind : Kind) : (s.operation kind).1.offload? = match kind with
    | .offload => some ⟨s.nextInstruction, s.mix.offloadCycles, []⟩
    | _ => none := by
  cases kind <;> rfl

theorem yields_operation (ready : s.Ready size) {kind : Kind} {weight : Nat} (positive : 0 < weight)
    (member : (weight, kind) ∈ weights s.mix) : s.mix.Yields size (s.operation kind).1 := by
  have addressed := address_bounds ready
  cases kind with
  | load =>
    have weighs : 0 < s.mix.load := by simp [weights] at member; omega
    exact ⟨weighs, addressed⟩
  | store =>
    have weighs : 0 < s.mix.store := by simp [weights] at member; omega
    exact ⟨weighs, addressed⟩
  | compute =>
    have weighs : 0 < s.mix.compute := by simp [weights] at member; omega
    have fits : s.mix.longestCompute < Nat.pow 2 64 := Nat.lt_succ_of_le ready.word
    exact .inl ⟨weighs, s.generator.between_bounds (Nat.le_refl 64) ready.compute fits⟩
  | offload =>
    have weighs : 0 < s.mix.offload := by simp [weights] at member; omega
    exact ⟨weighs, rfl, rfl⟩

structure Advances (size : Nat) (s : Synthetic) (operation : Operation) (after : Synthetic) : Prop where
  ready : after.Ready size
  mix : after.mix = s.mix
  yields : s.mix.Yields size operation
  numbered : operation.offload? = none ∧ after.nextInstruction = s.nextInstruction ∨
    operation.offload? = some ⟨s.nextInstruction, s.mix.offloadCycles, []⟩ ∧
      after.nextInstruction = (s.nextInstruction + 1) % 0x100000000

theorem advances_operation {drawn : Synthetic} (ready : drawn.Ready size) (mix : drawn.mix = s.mix)
    (instruction : drawn.nextInstruction = s.nextInstruction) {kind : Kind} {weight : Nat}
    (positive : 0 < weight) (member : (weight, kind) ∈ weights s.mix) :
    s.Advances size (drawn.operation kind).1 (drawn.operation kind).2 := by
  obtain ⟨generator, moved⟩ := drawn.operation_after kind
  have named := drawn.offload?_operation kind
  have numbers := ready.instruction
  constructor
  · rw [moved]
    refine { ready with instruction := ?_ }
    cases kind <;> simp only <;> omega
  · rw [moved]
    exact mix
  · rw [← mix] at member ⊢
    exact yields_operation ready positive member
  · rw [named, moved, instruction, mix]
    cases kind with
    | offload => exact .inr ⟨rfl, rfl⟩
    | load | store | compute => exact .inl ⟨rfl, rfl⟩

theorem exists_advances (ready : s.Ready size) (left : s.remaining ≠ 0) :
    ∃ operation after, s.next? = some (operation, after) ∧ s.Advances size operation after := by
  unfold next?
  rw [if_neg left]
  simp only
  by_cases weightless : s.mix.load + s.mix.store + s.mix.compute + s.mix.offload = 0
  · rw [if_pos weightless]
    exact ⟨_, _, rfl, { ready with }, rfl, .inr ⟨weightless, rfl⟩, .inl ⟨rfl, rfl⟩⟩
  · rw [if_neg weightless]
    have positive : 0 < s.mix.total := Nat.pos_of_ne_zero weightless
    have inside : (s.generator.below 32 s.mix.total).1 < ((weights s.mix).map Prod.fst).sum := by
      have drawn := s.generator.below_lt (by decide) positive (Nat.le_of_lt ready.weights)
      simp only [weights, List.map_cons, List.map_nil, List.sum_cons, List.sum_nil]
      unfold Mix.total at drawn ⊢
      omega
    obtain ⟨weight, weighs, member⟩ := exists_weight_of_kindAt inside
    refine ⟨_, _, rfl, advances_operation ?_ ?_ ?_ weighs member⟩
    · exact { ready with }
    · rfl
    · rfl

/-- The stream yields these operations, and then nothing for ever. -/
structure Gives (size : Nat) (s : Synthetic) (stream : List Operation) : Prop where
  length : stream.length = s.remaining
  take : ∀ count, (Workload.synthetic s).take count = (stream.take count, decide (stream.length < count))
  yields : ∀ operation ∈ stream, s.mix.Yields size operation
  offloads : ∃ offloads, stream.filterMap Operation.offload? = (List.range offloads).map fun number =>
    ⟨(s.nextInstruction + number) % 0x100000000, s.mix.offloadCycles, []⟩

theorem gives_nil (ended : s.remaining = 0) : s.Gives size [] := by
  have finished : s.next? = none := if_pos ended
  refine ⟨ended.symm, ?_, by simp, 0, rfl⟩
  intro count
  cases count with
  | zero => rfl
  | succ count => simp [Workload.take, Workload.next?, finished]

theorem Gives.cons (ready : s.Ready size) {operation : Operation}
    (next : s.next? = some (operation, after)) (advances : s.Advances size operation after)
    {stream : List Operation} (gives : after.Gives size stream) : s.Gives size (operation :: stream) := by
  obtain ⟨length, take, yields, offloads, numbered⟩ := gives
  refine ⟨?_, ?_, ?_, ?_⟩
  · have shorter := remaining_next? next
    simp only [List.length_cons]
    omega
  · intro count
    cases count with
    | zero => rfl
    | succ count =>
      have first : (Workload.synthetic s).next? = some (operation, .synthetic after) := by
        simp only [Workload.next?, next, Option.map_some]
      simp only [Workload.take, first, take count, List.take_succ_cons, List.length_cons,
        Nat.add_lt_add_iff_right]
  · intro other member
    rcases List.mem_cons.mp member with rfl | member
    · exact advances.yields
    · rw [← advances.mix]
      exact yields other member
  · rw [advances.mix] at numbered
    rcases advances.numbered with ⟨other, same⟩ | ⟨own, moved⟩
    · exact ⟨offloads, by rw [List.filterMap_cons_none other, numbered, same]⟩
    · refine ⟨offloads + 1, ?_⟩
      have first := ready.instruction
      rw [List.filterMap_cons_some own, numbered, List.range_succ_eq_map, List.map_cons, List.map_map, moved]
      congr 1
      · congr 1
        omega
      · refine List.map_congr_left fun number _ => ?_
        simp only [Function.comp_apply]
        congr 1
        omega

theorem exists_gives (ready : s.Ready size) : ∃ stream, s.Gives size stream := by
  induction left : s.remaining generalizing s with
  | zero => exact ⟨[], gives_nil left⟩
  | succ remaining ih =>
    obtain ⟨operation, after, next, advances⟩ := exists_advances ready (by omega)
    have shorter := remaining_next? next
    obtain ⟨stream, gives⟩ := ih advances.ready (by omega)
    exact ⟨operation :: stream, .cons ready next advances gives⟩

example : (Workload.synthetic (.start {
      operations := 6
      load := 1
      store := 0
      compute := 1
      offload := 2
      longestCompute := 4
      offloadCycles := 4 } 3 7 true)).take 7 =
    ([.compute 4, .offload ⟨0, 4, []⟩, .load 0, .load 0, .offload ⟨1, 4, []⟩, .offload ⟨2, 4, []⟩], true) := by
  decide +kernel

theorem ready_start {mix : Mix} {span : Nat} (nonempty : 0 < size) (inside : span ≤ size)
    (memory : size ≤ horizon) (word : mix.longestCompute ≤ horizon) (weights : mix.total < Nat.pow 2 32)
    (seed : Nat) (offloads : Bool) : (start mix span seed offloads).Ready size where
  nonempty := nonempty
  span := inside
  memory := memory
  compute := Nat.le_max_right ..
  word := Nat.max_le.mpr ⟨word, by decide⟩
  weights := by
    unfold Mix.total at weights
    show mix.load + mix.store + mix.compute + (if offloads then mix.offload else 0) < _
    split <;> omega
  instruction := Nat.zero_lt_succ _

end Synthetic

/-- The settings fit the words that hold them. -/
structure Config.Words (config : Config) : Prop where
  memory : config.cpu.memorySize ≤ horizon
  compute : config.synthetic.longestCompute ≤ horizon
  weights : config.synthetic.mix.total < Nat.pow 2 32

namespace Program

variable {config : Config} {platform : Platform}

/-- The stream of a core without a program: all its operations, and then nothing for ever. Offloads are
    numbered in their order. -/
structure Streams (config : Config) (platform : Platform) (workload : Workload) (stream : List Operation) :
    Prop where
  length : stream.length = config.synthetic.operations
  take : ∀ count, workload.take count = (stream.take count, decide (stream.length < count))
  yields : ∀ operation ∈ stream,
    (config.synthetic.mix.inEffect platform.coprocessor.isSome).Yields platform.memorySize operation
  offloads : ∃ offloads, stream.filterMap Operation.offload? = (List.range offloads).map fun number =>
    ⟨number % 0x100000000, config.synthetic.offloadCycles, []⟩

theorem exists_stream (built : config.build = .ok platform) (words : config.Words) (core : CoreSpec) :
    ∃ stream, Streams config platform (synthetic config platform core) stream := by
  obtain ⟨-, -, -, -, memory, -⟩ := Config.reads_of_build built
  have nonempty := (Config.valid_of_build built).some_memory
  have ready := Synthetic.ready_start nonempty
    (Nat.min_le_right (config.synthetic.addressSpan.getD platform.memorySize) platform.memorySize)
    (memory ▸ words.memory) words.compute words.weights (workloadSeed platform.seed core.id)
    platform.coprocessor.isSome
  obtain ⟨stream, length, take, yields, offloads, numbered⟩ := Synthetic.exists_gives ready
  refine ⟨stream, length, take, yields, offloads, ?_⟩
  simpa [Synthetic.start, SyntheticSettings.mix] using numbered

end Program

end CoreTiming
