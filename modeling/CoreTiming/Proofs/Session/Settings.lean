import CoreTiming.Proofs.Config.Cores
import CoreTiming.Proofs.Config.Replacement
import CoreTiming.Proofs.Json.Writing
import CoreTiming.Proofs.Session.Calls

namespace CoreTiming

open Json (Keyed Tidy Value named put)

theorem Section.name_inj {target other : Section} : target.name = other.name ↔ target = other := by
  cases target <;> cases other <;> decide

theorem Section.name_ne_level (target : Section) : "statistic_load_level" ≠ target.name := by
  cases target <;> decide

namespace Session

namespace Setter

def touches (target : Section) : Setter → Bool
  | .option .. => target = .options
  | .level _ => false
  | .parameters other _ => target = other

def written? (target : Section) (name : String) : Setter → Option Value
  | .option key value => if target = .options ∧ name = key then value.canonical? else none
  | .level _ => none
  | .parameters other value =>
    if target = other then
      match value.canonical? with
      | some (.object new) => named new name
      | _ => none
    else none

def highest? : Setter → Option (Fin 256)
  | .level highest => some highest
  | _ => none

def last {α : Type} (what : Setter → Option α) : List Setter → Option α
  | [] => none
  | setter :: later => (last what later).or (what setter)

end Setter

/-- The configuration with each setting replaced by what calls write, if all of it can be read. -/
def rewritten (config : Config) (setters : List Setter) : Option Config := do
  let written target name := Setter.last (·.written? target name) setters
  return {
    options := ← config.options.replace (written .options)
    statisticLevel := ((Setter.last Setter.highest? setters).map Fin.val).getD config.statisticLevel
    cpu := ← config.cpu.replace (written .cpu)
    coprocessor := ← config.coprocessor.replace (written .coprocessor)
    synthetic := ← config.synthetic.replace (written .synthetic) }

variable {before middle after : List (Json.Text × Value)} {setter : Setter} {setters later : List Setter}
  {environment : Environment}

/-- What settings become by calls. -/
structure Merged (before : List (Json.Text × Value)) (setters : List Setter) (after : List (Json.Text × Value)) :
    Prop where
  tidy : Tidy after
  found : ∀ target name, named (members after target.name) name =
    (Setter.last (·.written? target name) setters).or (named (members before target.name) name)
  touched : ∀ target, setters.any (·.touches target) = true →
    ∃ inner, named after target.name = some (.object inner)
  untouched : ∀ target, setters.any (·.touches target) = false →
    named after target.name = named before target.name
  level : named after "statistic_load_level" =
    ((Setter.last Setter.highest? setters).map fun highest : Fin 256 => Value.nat highest.val).or
      (named before "statistic_load_level")

theorem Merged.refl (tidy : Tidy before) : Merged before [] before where
  tidy := tidy
  found _ _ := rfl
  touched _ impossible := by cases impossible
  untouched _ _ := rfl
  level := rfl

theorem Merged.trans (first : Merged before [setter] middle) (rest : Merged middle later after) :
    Merged before (setter :: later) after where
  tidy := rest.tidy
  found target name := by
    rw [rest.found, first.found, ← Option.or_assoc]
    rfl
  touched target any := by
    cases again : later.any (·.touches target) with
    | true => exact rest.touched target again
    | false =>
      rw [rest.untouched target again]
      refine first.touched target ?_
      rwa [List.any_cons, again] at any
  untouched target none := by
    rw [List.any_cons, Bool.or_eq_false_iff] at none
    rw [rest.untouched target none.2, first.untouched target (by simp [none.1])]
  level := by
    rw [rest.level, first.level, ← Option.or_assoc, ← Option.map_or]
    rfl

theorem members_eq (settings : List (Json.Text × Value)) (name : String) :
    members settings name = match named settings name with
      | some (.object members) => members
      | _ => [] := rfl

theorem keyed_members (tidy : Tidy before) (name : String) : Keyed (members before name) := by
  rw [members_eq]
  split
  next inner found => exact tidy.nested _ inner found
  next => exact Json.keyed_nil

theorem members_put (target other : Section) (inner : List (Json.Text × Value)) :
    members (put (some target.name) (.object inner) before) other.name =
      if other = target then inner else members before other.name := by
  rw [members_eq, Json.named_put]
  by_cases same : other = target
  · rw [if_pos same, if_pos (Section.name_inj.mpr same)]
  · rw [if_neg same, if_neg (mt Section.name_inj.mp same)]
    rfl

theorem merged_extend {new : List (Json.Text × Value)} {target : Section} (tidy : Tidy before) (keyed : Keyed new)
    (touches : ∀ other, setter.touches other = decide (other = target))
    (writes : ∀ other name, setter.written? other name =
      if other = target then named new name else none)
    (level : setter.highest? = none) :
    Merged before [setter]
      (put (some target.name) (.object (Json.putAll new (members before target.name))) before) where
  tidy := by
    refine tidy.put (by simp) _ fun inner same => ?_
    cases same
    exact (keyed_members tidy target.name).putAll keyed.texts
  found other name := by
    rw [members_put, Setter.last, Setter.last, Option.none_or, writes]
    by_cases same : other = target
    · rw [if_pos same, if_pos same, keyed.named_putAll, same]
    · rw [if_neg same, if_neg same, Option.none_or]
  touched other touched := by
    have same : other = target := by simpa [touches] using touched
    rw [Json.named_put, if_pos (Section.name_inj.mpr same)]
    exact ⟨_, rfl⟩
  untouched other untouched := by
    have different : ¬ other = target := by simpa [touches] using untouched
    rw [Json.named_put, if_neg (mt Section.name_inj.mp different)]
  level := by
    rw [Json.named_put, if_neg target.name_ne_level, Setter.last, Setter.last, level]
    rfl

theorem merged_level (tidy : Tidy before) (highest : Fin 256) :
    Merged before [.level highest] (put (some "statistic_load_level") (.nat highest) before) where
  tidy := tidy.put (by simp) _ fun inner same => by cases same
  found other name := by
    rw [members_eq, Json.named_put, if_neg other.name_ne_level.symm]
    rfl
  touched other touched := by cases touched
  untouched other _ := by rw [Json.named_put, if_neg other.name_ne_level.symm]
  level := by
    rw [Json.named_put, if_pos rfl]
    rfl

theorem exchanged_eq_ok_iff {value canonical : Value} :
    exchanged value = .ok canonical ↔ value.canonical? = some canonical := by
  unfold exchanged
  cases value.canonical? <;> simp

theorem exists_merged_of_apply {session : Session} (tidy : Tidy before)
    (applied : setter.apply (.building before) = .ok session) :
    ∃ after, session = .building after ∧ Merged before [setter] after := by
  cases setter with
  | option key value =>
    obtain ⟨canonical, read, extended⟩ := exists_of_bind_eq_ok applied
    cases extended
    have keyed : Keyed [(some key, canonical)] := ⟨by simp, by simp⟩
    refine ⟨_, rfl, merged_extend tidy keyed (fun _ => rfl) ?_ rfl⟩
    intro other name
    rw [Setter.written?, exchanged_eq_ok_iff.mp read, named, Json.lookup_cons]
    by_cases here : other = .options <;> by_cases same : name = key <;> simp [here, same]
  | level highest =>
    cases applied
    exact ⟨_, rfl, merged_level tidy highest⟩
  | parameters target value =>
    obtain ⟨canonical, read, extended⟩ := exists_of_bind_eq_ok applied
    have written := exchanged_eq_ok_iff.mp read
    cases canonical with
    | object new =>
      cases extended
      refine ⟨_, rfl, merged_extend tidy (Json.keyed_of_canonical? written) (fun _ => rfl) ?_ rfl⟩
      intro other name
      rw [Setter.written?, written]
    | _ => cases extended

theorem exists_merged_of_perform {left : World} (tidy : Tidy before)
    (set : (setters.forM Setter.method).perform ⟨.building before, environment⟩ = (.ok (), left)) :
    ∃ after, left = ⟨.building after, environment⟩ ∧ Merged before setters after := by
  -- Settings stay tidy, so what one call does to them can be chained with what the later ones do.
  induction setters generalizing before with
  | nil =>
    cases set
    exact ⟨before, rfl, .refl tidy⟩
  | cons setter later ih =>
    have first : (setter.method >>= fun _ => later.forM Setter.method).perform ⟨.building before, environment⟩ =
      (.ok (), left) := set
    rw [Method.perform_bind, Setter.perform_method] at first
    cases applied : setter.apply (.building before) with
    | error error =>
      rw [applied] at first
      cases first
    | ok session =>
      obtain ⟨middle, rfl, merged⟩ := exists_merged_of_apply tidy applied
      rw [applied] at first
      obtain ⟨after, rfl, rest⟩ := ih merged.tidy first
      exact ⟨after, rfl, merged.trans rest⟩

/-- A call touches a section that is no object, so its old members are given up. -/
def dropped (settings : List (Json.Text × Value)) (setters : List Setter) (target : Section) : Bool :=
  setters.any (·.touches target) && match named settings target.name with
    | some (.object _) | none => false
    | some _ => true

def kept (document : Value) (setters : List Setter) (config : Config) : Config :=
  match document with
  | .object settings => {
    options := if dropped settings setters .options then {} else config.options
    statisticLevel := config.statisticLevel
    cpu := if dropped settings setters .cpu then {} else config.cpu
    coprocessor := if dropped settings setters .coprocessor then {} else config.coprocessor
    synthetic := if dropped settings setters .synthetic then {} else config.synthetic }
  | _ => {}

theorem last_written_eq_none {target : Section} (untouched : setters.any (·.touches target) = false)
    (name : String) : Setter.last (·.written? target name) setters = none := by
  induction setters with
  | nil => rfl
  | cons setter later ih =>
    rw [List.any_cons, Bool.or_eq_false_iff] at untouched
    rw [Setter.last, ih untouched.2, Option.none_or]
    cases setter with
    | option key value =>
      have other : ¬ target = .options := by simpa [Setter.touches] using untouched.1
      exact if_neg fun both => other both.1
    | level highest => rfl
    | parameters named value =>
      have other : ¬ target = named := by simpa [Setter.touches] using untouched.1
      exact if_neg other

/-- A section is read as if the calls had replaced its settings, from the defaults if it was dropped. -/
theorem Merged.replaced_eq {α : Type} {reader : Value → Option α} {default old : α}
    {replace : (String → Option Value) → α → Option α} (merged : Merged before setters after) (tidy : Tidy before)
    (sectional : Sectional reader replace default) (target : Section)
    (read : replaced (named before) target.name default reader = some old) :
    replaced (named after) target.name default reader =
      replace (fun name => Setter.last (·.written? target name) setters)
        (if dropped before setters target then default else old) := by
  cases touched : setters.any (·.touches target) with
  | false =>
    have nothing : (fun name => Setter.last (·.written? target name) setters) = fun _ => none :=
      funext (last_written_eq_none touched)
    have same : dropped before setters target = false := by simp [dropped, touched]
    have still : replaced (named after) target.name default reader =
        replaced (named before) target.name default reader := by
      rw [replaced, merged.untouched target touched]
      rfl
    rw [still, read, nothing, same, sectional.nothing]
    rfl
  | true =>
    obtain ⟨inner, found⟩ := merged.touched target touched
    have lookups : named inner = fun name =>
        (Setter.last (·.written? target name) setters).or (named (members before target.name) name) := by
      funext name
      rw [← merged.found target name, members_eq, found]
    have now : replaced (named after) target.name default reader = replace (named inner) default := by
      rw [replaced_of_some found]
      exact sectional.object (merged.tidy.nested _ _ found)
    rw [now, lookups, members_eq, dropped, touched]
    -- Only an object has members that the calls could be merged with.
    cases given : named before target.name with
    | none =>
      rw [replaced_of_none given] at read
      cases read
      simp [named]
    | some value =>
      rw [replaced_of_some given] at read
      cases value with
      | object given =>
        rw [sectional.object (tidy.nested _ _ given)] at read
        exact sectional.again read _
      | _ => simp [named]

theorem asWord?_level (highest : Fin 256) : (Value.nat highest.val).asWord? 8 = some highest.val := by
  rw [Value.nat, Value.asWord?, Json.toNat?_ofNat]
  exact Option.filter_some_pos (decide_eq_true highest.isLt)

theorem Merged.level_eq {old : Nat} (merged : Merged before setters after)
    (read : replaced (named before) "statistic_load_level" 1 (Value.asWord? 8) = some old) :
    replaced (named after) "statistic_load_level" 1 (Value.asWord? 8) =
      some (((Setter.last Setter.highest? setters).map Fin.val).getD old) := by
  have found := merged.level
  cases wanted : Setter.last Setter.highest? setters with
  | none =>
    rw [wanted] at found
    rw [replaced, found]
    exact read
  | some highest =>
    rw [wanted] at found
    rw [replaced_of_some found, asWord?_level]
    rfl

theorem Merged.ofValue?_eq {config : Config} (merged : Merged before setters after) (tidy : Tidy before)
    (read : Config.ofValue? (.object before) = some config) :
    Config.ofValue? (.object after) = rewritten (kept (.object before) setters config) setters := by
  rw [Config.ofValue?_object tidy.keyed] at read
  simp only [bind, pure, Option.bind_eq_some_iff, Option.some.injEq] at read
  obtain ⟨_, options, _, level, _, cpu, _, coprocessor, _, synthetic, rfl⟩ := read
  have options := merged.replaced_eq tidy ProgramOptions.sectional .options options
  have cpu := merged.replaced_eq tidy CpuSettings.sectional .cpu cpu
  have coprocessor := merged.replaced_eq tidy CoprocessorSettings.sectional .coprocessor coprocessor
  have synthetic := merged.replaced_eq tidy SyntheticSettings.sectional .synthetic synthetic
  simp only [Section.name] at options cpu coprocessor synthetic
  rw [Config.ofValue?_object merged.tidy.keyed, options, merged.level_eq level, cpu, coprocessor, synthetic]
  rfl

theorem kept_nil (setters : List Setter) : kept (.object []) setters {} = {} := by
  simp only [kept, ite_self]

theorem exists_of_ofConfig {document : Value} {session : Session} (accepted : ofConfig document = .ok session) :
    ∃ value config settings base, document.canonical? = some value ∧ Config.ofValue? value = some config ∧
      session = .building settings ∧ Tidy settings ∧ Config.ofValue? (.object settings) = some base ∧
      ∀ setters, kept (.object settings) setters base = kept value setters config := by
  obtain ⟨value, exchange, started⟩ := exists_of_bind_eq_ok accepted
  have canonical := exchanged_eq_ok_iff.mp exchange
  cases read : Config.ofValue? value with
  | none =>
    rw [read] at started
    cases started
  | some config =>
    rw [read] at started
    cases value with
    | object settings =>
      cases started
      have tidy := Json.tidy_of_canonical? canonical
      exact ⟨_, config, settings, config, canonical, read, rfl, tidy, read, fun _ => rfl⟩
    | _ =>
      cases started
      exact ⟨_, config, [], {}, canonical, read, rfl, Json.tidy_nil, rfl, kept_nil⟩

theorem kept_eq_self {settings : List (Json.Text × Value)} {setters : List Setter}
    (heard : ∀ target, dropped settings setters target = false) (config : Config) :
    kept (.object settings) setters config = config := by
  simp only [kept, heard, Bool.false_eq_true, if_false]

end Session

/-- The configuration that runs is the one that was accepted, with each setting replaced by the last value that a
    call gave to it, if it was written as an object and so was each of its sections that a call touches. What is
    written as an array is checked, but of it nothing is kept. -/
theorem Session.Method.run_of_accepted {document : Value} {world after : World} {setters : List Setter}
    (accepted : ofConfig document = .ok world.session)
    (set : (setters.forM Setter.method).perform world = (.ok (), after)) :
    ∃ value config, document.canonical? = some value ∧ Config.ofValue? value = some config ∧
      run.perform after =
        after.settle (readable (rewritten (kept value setters config) setters) >>= launch world.environment) ∧
      ∀ settings, value = .object settings → (∀ target, dropped settings setters target = false) →
        run.perform after = after.settle (readable (rewritten config setters) >>= launch world.environment) := by
  obtain ⟨value, config, settings, base, canonical, accepts, started, tidy, read, same⟩ :=
    exists_of_ofConfig accepted
  obtain ⟨session, environment⟩ := world
  cases started
  obtain ⟨left, rfl, merged⟩ := exists_merged_of_perform tidy set
  have ran : run.perform ⟨.building left, environment⟩ = World.settle ⟨.building left, environment⟩
      (readable (rewritten (kept value setters config) setters) >>= launch environment) := by
    rw [perform_run, ← same, ← merged.ofValue?_eq tidy read]
    rfl
  refine ⟨value, config, canonical, accepts, ran, fun members written heard => ?_⟩
  rw [ran, written, kept_eq_self heard]

theorem Session.Method.run_after_two_writes :
    let settings : List (Json.Text × Value) :=
      [(some "cpu", .object [(some "numCores", .nat 2), (some "memCost", .string "[0:1:9]")])]
    let setters : List Setter := [.parameters .cpu (.object [(some "numCores", .nat 3)]), .option "seed" (.nat 7),
      .level 4, .parameters .cpu (.object [(some "numCores", .nat 4)])]
    let environment : Environment := { files := ⟨[]⟩ }
    let after : World := ⟨.building
      [(some "cpu", .object [(some "numCores", .nat 4), (some "memCost", .string "[0:1:9]")]),
        (some "program_options", .object [(some "seed", .nat 7)]), (some "statistic_load_level", .nat 4)],
      environment⟩
    ofConfig (.object settings) = .ok (.building settings) ∧
      (setters.forM Setter.method).perform ⟨.building settings, environment⟩ = (.ok (), after) ∧
      run.perform after = after.settle (launch environment {
        options := { seed := 7 }, statisticLevel := 4, cpu := { cores := 4, memoryCost := some "[0:1:9]" } }) := by
  intro settings setters environment after
  have accepted : ofConfig (.object settings) = .ok (.building settings) := rfl
  have set : (setters.forM Setter.method).perform ⟨.building settings, environment⟩ = (.ok (), after) := rfl
  obtain ⟨value, config, canonical, accepts, -, runs⟩ :=
    @run_of_accepted _ ⟨.building settings, environment⟩ _ _ accepted set
  have same : (Value.object settings).canonical? = some (.object settings) := rfl
  cases canonical.symm.trans same
  have read : Config.ofValue? (.object settings) =
    some { cpu := { cores := 2, memoryCost := some "[0:1:9]" } } := rfl
  cases accepts.symm.trans read
  have ran := runs settings rfl fun target => by cases target <;> rfl
  have replaced : rewritten { cpu := { cores := 2, memoryCost := some "[0:1:9]" } } setters = some {
    options := { seed := 7 }, statisticLevel := 4, cpu := { cores := 4, memoryCost := some "[0:1:9]" } } := rfl
  rw [replaced] at ran
  exact ⟨accepted, set, ran⟩

/-- An array is accepted with no core in it, but what runs is the default with no memory. -/
theorem Session.Method.array_is_not_kept :
    let document : Value := .array [.object [], .nat 1, .object [(some "numCores", .nat 0)]]
    let setters : List Setter := [.parameters .cpu (.object [(some "memSize", .nat 0)])]
    let environment : Environment := { files := ⟨[]⟩ }
    ∃ value config session after, document.canonical? = some value ∧ Config.ofValue? value = some config ∧
      ofConfig document = .ok session ∧
      (setters.forM Setter.method).perform ⟨session, environment⟩ = (.ok (), after) ∧
      (run.perform after).1 = .error (.configuration (.malformed "memSize" .noMemory)) ∧
      (readable (rewritten config setters) >>= launch environment) =
        .error (.configuration (.malformed "numCores" .noCores)) := by
  exact ⟨_, _, _, _, rfl, rfl, rfl, rfl, rfl, rfl⟩

end CoreTiming
