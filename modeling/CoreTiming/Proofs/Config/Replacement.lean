import CoreTiming.Config.Document
import CoreTiming.Proofs.Json.Members

namespace CoreTiming

open Json (Keyed Value field named)

def replaced {α : Type} (written : String → Option Value) (name : String) (old : α) (reader : Value → Option α) :
    Option α :=
  match written name with
  | none => some old
  | some value => reader value

def ProgramOptions.replace (written : String → Option Value) (old : ProgramOptions) : Option ProgramOptions := do
  return {
    timebase := ← replaced written "timebase" old.timebase Value.asText?
    stopAtCycle := ← replaced written "stopAtCycle" old.stopAtCycle Value.asTime?
    seed := ← replaced written "seed" old.seed (Value.asWord? 64) }

def CpuSettings.replace (written : String → Option Value) (old : CpuSettings) : Option CpuSettings := do
  let optionalText := Value.asOption? Value.asText?
  return {
    verbose := ← replaced written "verbose" old.verbose (Value.asWord? 32)
    cores := ← replaced written "numCores" old.cores (Value.asWord? 64)
    clock := ← replaced written "clock" old.clock Value.asText?
    memorySize := ← replaced written "memSize" old.memorySize (Value.asWord? 64)
    machine := ← replaced written "machine" old.machine Value.asText?
    startAddress := ← replaced written "startAddr" old.startAddress Value.asText?
    memoryCost := ← replaced written "memCost" old.memoryCost optionalText
    memoryCostTable := ← replaced written "memCostTable" old.memoryCostTable optionalText
    coprocessor := ← replaced written "enableCoProc" old.coprocessor Value.asFlag?
    program := ← replaced written "program" old.program optionalText
    faultPolicy := ← replaced written "faultPolicy" old.faultPolicy (Value.asChoice? FaultPolicy.choices) }

def CoprocessorSettings.replace (written : String → Option Value) (old : CoprocessorSettings) :
    Option CoprocessorSettings := do
  return {
    clock := ← replaced written "clock" old.clock Value.asText?
    verbose := ← replaced written "verbose" old.verbose (Value.asWord? 32)
    queueDepth := ← replaced written "queueDepth" old.queueDepth (Value.asWord? 64)
    issue := ← replaced written "issue" old.issue (Value.asChoice? IssueMode.choices)
    issueWidth := ← replaced written "issueWidth" old.issueWidth (Value.asWord? 64) }

def SyntheticSettings.replace (written : String → Option Value) (old : SyntheticSettings) :
    Option SyntheticSettings := do
  return {
    operations := ← replaced written "ops" old.operations (Value.asWord? 64)
    loadWeight := ← replaced written "loadWeight" old.loadWeight (Value.asWord? 32)
    storeWeight := ← replaced written "storeWeight" old.storeWeight (Value.asWord? 32)
    computeWeight := ← replaced written "computeWeight" old.computeWeight (Value.asWord? 32)
    offloadWeight := ← replaced written "offloadWeight" old.offloadWeight (Value.asWord? 32)
    longestCompute := ← replaced written "maxCompute" old.longestCompute (Value.asWord? 64)
    offloadCycles := ← replaced written "offloadCycles" old.offloadCycles (Value.asWord? 64)
    addressSpan := ← replaced written "addressSpan" old.addressSpan (Value.asOption? (Value.asWord? 64)) }

section Replaced

variable {α : Type} {reader : Value → Option α} {name : String} {oldest old : α}

theorem replaced_of_none {written : String → Option Value} (absent : written name = none) :
    replaced written name old reader = some old := by
  rw [replaced, absent]

theorem replaced_of_some {written : String → Option Value} {value : Value} (present : written name = some value) :
    replaced written name old reader = reader value := by
  rw [replaced, present]

theorem replaced_or {earlier : String → Option Value} (once : replaced earlier name oldest reader = some old)
    (later : String → Option Value) :
    replaced (fun name => (later name).or (earlier name)) name oldest reader = replaced later name old reader := by
  show (match (later name).or (earlier name) with
    | none => some oldest
    | some value => reader value) = _
  unfold replaced at once ⊢
  cases later name with
  | none => exact once
  | some value => rfl

theorem bind_fields? {members : List (Json.Text × Value)} (keyed : Keyed members) {names : List String}
    {next : List (String × Value) → Option α} {result : Option α}
    (reads : ∀ known, (∀ {β : Type} (name : String) (default : β) (reader : Value → Option β), name ∈ names →
      field known name default reader =
        replaced (named members) name default reader) → next known = result) :
    ((Value.object members).fields? names >>= next) = result := by
  obtain ⟨known, read, finds⟩ := Json.exists_knownMembers names keyed
  show (Json.knownMembers names members >>= next) = result
  rw [read]
  refine reads known fun name default reader inside => ?_
  rw [field, finds name, if_pos inside, replaced]
  cases named members name <;> rfl

end Replaced

/-- A reader of a section is determined by what replaces its settings. -/
structure Sectional {α : Type} (reader : Value → Option α) (replace : (String → Option Value) → α → Option α)
    (default : α) : Prop where
  object : ∀ {members}, Keyed members →
    reader (.object members) = replace (named members) default
  again : ∀ {earlier : String → Option Value} {oldest old : α}, replace earlier oldest = some old →
    ∀ later, replace (fun name => (later name).or (earlier name)) oldest = replace later old
  nothing : ∀ old, replace (fun _ => none) old = some old

theorem ProgramOptions.sectional : Sectional ofValue? replace {} where
  object keyed := bind_fields? keyed fun known fields => by
    simp (disch := decide) only [fields]
    rfl
  again once later := by
    simp only [replace, bind, pure, Option.bind_eq_some_iff, Option.some.injEq] at once
    obtain ⟨_, timebase, _, stop, _, seed, rfl⟩ := once
    simp only [replace, replaced_or timebase, replaced_or stop, replaced_or seed]
  nothing _ := rfl

theorem CpuSettings.sectional : Sectional ofValue? replace {} where
  object keyed := bind_fields? keyed fun known fields => by
    simp (disch := decide) only [fields]
    rfl
  again once later := by
    simp only [replace, bind, pure, Option.bind_eq_some_iff, Option.some.injEq] at once
    obtain ⟨_, verbose, _, cores, _, clock, _, size, _, machine, _, start, _, cost, _, table, _, coprocessor,
      _, program, _, policy, rfl⟩ := once
    simp only [replace, replaced_or verbose, replaced_or cores, replaced_or clock, replaced_or size,
      replaced_or machine, replaced_or start, replaced_or cost, replaced_or table, replaced_or coprocessor,
      replaced_or program, replaced_or policy]
  nothing _ := rfl

theorem CoprocessorSettings.sectional : Sectional ofValue? replace {} where
  object keyed := bind_fields? keyed fun known fields => by
    simp (disch := decide) only [fields]
    rfl
  again once later := by
    simp only [replace, bind, pure, Option.bind_eq_some_iff, Option.some.injEq] at once
    obtain ⟨_, clock, _, verbose, _, depth, _, issue, _, width, rfl⟩ := once
    simp only [replace, replaced_or clock, replaced_or verbose, replaced_or depth, replaced_or issue,
      replaced_or width]
  nothing _ := rfl

theorem SyntheticSettings.sectional : Sectional ofValue? replace {} where
  object keyed := bind_fields? keyed fun known fields => by
    simp (disch := decide) only [fields]
    rfl
  again once later := by
    simp only [replace, bind, pure, Option.bind_eq_some_iff, Option.some.injEq] at once
    obtain ⟨_, operations, _, load, _, store, _, compute, _, offload, _, longest, _, cycles, _, span, rfl⟩ := once
    simp only [replace, replaced_or operations, replaced_or load, replaced_or store, replaced_or compute,
      replaced_or offload, replaced_or longest, replaced_or cycles, replaced_or span]
  nothing _ := rfl

theorem Config.ofValue?_object {members : List (Json.Text × Value)} (keyed : Keyed members) :
    ofValue? (.object members) = (do
      return {
        options := ← replaced (named members) "program_options" {} ProgramOptions.ofValue?
        statisticLevel := ← replaced (named members) "statistic_load_level" 1 (Value.asWord? 8)
        cpu := ← replaced (named members) "cpu" {} CpuSettings.ofValue?
        coprocessor := ← replaced (named members) "co_proc" {} CoprocessorSettings.ofValue?
        synthetic := ← replaced (named members) "synthetic" {} SyntheticSettings.ofValue? }) :=
  bind_fields? keyed fun known fields => by
    simp (disch := decide) only [fields]

end CoreTiming
