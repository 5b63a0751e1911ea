import CoreTiming.Proofs.Config.Readings
import Mathlib.Data.List.Induction

namespace CoreTiming

theorem LatencyPattern.restart_draw (pattern : LatencyPattern) (seed : Nat) :
    pattern.draw.2.restart seed = pattern.restart seed := by
  cases pattern <;> simp only [draw, restart]

theorem LatencyPattern.restart_restart (pattern : LatencyPattern) (first second : Nat) :
    (pattern.restart first).restart second = pattern.restart second := by
  cases pattern <;> simp only [restart]

namespace LatencySource

theorem restart_drawMany (count : Nat) (source : LatencySource) (seed : Nat) :
    (drawMany count source).2.pattern.restart seed = source.pattern.restart seed := by
  induction count generalizing source with
  | zero => rfl
  | succ count ih =>
    rw [drawMany]
    exact (ih source.draw.2).trans (source.pattern.restart_draw seed)

theorem pattern_drawMany_table {cells : List Nat} (nonempty : 0 < cells.length) (count : Nat) :
    (drawMany count (table cells)).2.pattern = .table cells (count % cells.length) := by
  induction count with
  | zero => rw [Nat.zero_mod]; rfl
  | succ count ih =>
    have wrap : max cells.length 1 = cells.length := Nat.max_eq_left nonempty
    rw [drawMany_succ_eq]
    simp only [draw, ih, LatencyPattern.draw, wrap, Nat.mod_add_mod]

end LatencySource

namespace LatencyModel

variable {model : LatencyModel} {seed : Nat}

/-- What can be asked of a model: a latency for a core, or to start over from a seed. -/
inductive Call
  | request (core : Nat)
  | reseed (seed : Nat)
  deriving DecidableEq, Repr

namespace Call

def seed? : Call → Option Nat
  | reseed seed => some seed
  | request _ => none

/-- The seed that counts after some calls on a model that was built from `seed`. -/
def lastSeed (seed : Nat) (calls : List Call) : Nat :=
  (calls.filterMap seed?).getLast?.getD seed

def requests (core : Nat) (calls : List Call) : Nat :=
  (calls.reverse.takeWhile (·.seed?.isNone)).count (request core)

theorem lastSeed_request (seed : Nat) (calls : List Call) (core : Nat) :
    lastSeed seed (calls ++ [request core]) = lastSeed seed calls := by
  simp [lastSeed, seed?]

theorem lastSeed_reseed (seed : Nat) (calls : List Call) (new : Nat) :
    lastSeed seed (calls ++ [reseed new]) = new := by
  simp [lastSeed, seed?]

theorem requests_request (core : Nat) (calls : List Call) (asking : Nat) :
    requests core (calls ++ [request asking]) =
      requests core calls + if asking = core then 1 else 0 := by
  simp [requests, seed?, List.count_cons]

theorem requests_reseed (core : Nat) (calls : List Call) (new : Nat) :
    requests core (calls ++ [reseed new]) = 0 := by
  simp [requests, seed?]

end Call

def call (model : LatencyModel) : Call → LatencyModel
  | .request core => ((model.draw? core).map Prod.snd).getD model
  | .reseed seed => (model.reseed seed).1

def after (model : LatencyModel) (calls : List Call) : LatencyModel :=
  calls.foldl call model

/-- The latency that a core is given once `count` others have been drawn for it. -/
def nthDraw? (model : LatencyModel) (core count : Nat) : Option Nat := do
  let (_, model) ← model.drawMany? core count
  let (latency, _) ← model.draw? core
  return latency

theorem after_concat (model : LatencyModel) (calls : List Call) (last : Call) :
    model.after (calls ++ [last]) = (model.after calls).call last := by
  simp only [after, List.foldl_append, List.foldl_cons, List.foldl_nil]

theorem map_fst_draw? (model : LatencyModel) (core : Nat) :
    (model.draw? core).map Prod.fst = model.sources[core]?.map fun source => source.draw.1 := by
  rw [draw?, Option.map_map]
  rfl

theorem sources_reseed (model : LatencyModel) (seed core : Nat) :
    (model.reseed seed).1.sources[core]? =
      model.sources[core]?.map (LatencySource.restart (coreSeed seed core)) :=
  List.getElem?_mapIdx

theorem drawMany?_of_source {core : Nat} {source : LatencySource} (count : Nat)
    (found : model.sources[core]? = some source) : ∃ after, model.drawMany? core count =
      some ((LatencySource.drawMany count source).1, after) ∧
        after.sources[core]? = some (LatencySource.drawMany count source).2 := by
  induction count generalizing model source with
  | zero => exact ⟨model, rfl, found⟩
  | succ count ih =>
    obtain ⟨inside, -⟩ := List.getElem?_eq_some_iff.mp found
    have drawn : model.draw? core = some (source.draw.1, ⟨model.sources.set core source.draw.2⟩) := by
      rw [draw?, found]
      rfl
    obtain ⟨after, others, left⟩ := @ih ⟨model.sources.set core source.draw.2⟩ source.draw.2
      (by rw [List.getElem?_set_self inside])
    refine ⟨after, ?_, left⟩
    rw [drawMany?, drawn]
    show (drawMany? core count _).bind _ = _
    rw [others]
    rfl

theorem nthDraw?_eq (model : LatencyModel) (core count : Nat) :
    model.nthDraw? core count =
      model.sources[core]?.map fun source => (LatencySource.drawMany count source).2.draw.1 := by
  cases found : model.sources[core]? with
  | none =>
    have missing : model.draw? core = none := by
      rw [draw?, found]
      rfl
    cases count with
    | zero =>
      show (model.draw? core).bind _ = _
      rw [missing]
      rfl
    | succ count =>
      rw [nthDraw?, drawMany?, missing]
      rfl
  | some source =>
    obtain ⟨after, drawn, left⟩ := drawMany?_of_source count found
    have next := after.map_fst_draw? core
    rw [left] at next
    rw [nthDraw?, drawn]
    obtain ⟨⟨latency, _⟩, taken, rfl⟩ := Option.map_eq_some_iff.mp next
    show (after.draw? core).bind _ = _
    rw [taken]
    rfl

theorem sources_request (model : LatencyModel) (asking core : Nat) :
    (model.call (.request asking)).sources[core]? = model.sources[core]?.map fun source =>
      if asking = core then source.draw.2 else source := by
  cases found : model.sources[asking]? with
  | none =>
    have kept : model.call (.request asking) = model := by
      rw [call, draw?, found]
      rfl
    rw [kept]
    by_cases same : asking = core
    · rw [← same, found]
      rfl
    · simp [same]
  | some source =>
    have moved : (model.call (.request asking)).sources = model.sources.set asking source.draw.2 := by
      rw [call, draw?, found]
      rfl
    obtain ⟨inside, -⟩ := List.getElem?_eq_some_iff.mp found
    rw [moved]
    by_cases same : asking = core
    · subst same
      rw [List.getElem?_set_self inside, found]
      simp
    · rw [List.getElem?_set_ne same]
      simp [same]

theorem length_after (model : LatencyModel) (calls : List Call) :
    (model.after calls).sources.length = model.sources.length := by
  induction calls using List.reverseRecOn with
  | nil => rfl
  | append_singleton calls last ih =>
    rw [after_concat, ← ih]
    cases last with
    | reseed seed => exact List.length_mapIdx
    | request core =>
      rw [call]
      cases drawn : (model.after calls).draw? core with
      | none => rfl
      | some next => exact (draw?_eq_some drawn).2.1

/-- The history of a model is no more than the last seed and, for each core, a number of draws. -/
theorem pattern_after (own : (model.reseed seed).1 = model) (calls : List Call) (core : Nat) :
    (model.after calls).sources[core]?.map LatencySource.pattern =
      (model.reseed (Call.lastSeed seed calls)).1.sources[core]?.map fun source =>
        (LatencySource.drawMany (Call.requests core calls) source).2.pattern := by
  induction calls using List.reverseRecOn with
  | nil =>
    show model.sources[core]?.map _ = (model.reseed seed).1.sources[core]?.map _
    rw [own]
    rfl
  | append_singleton calls last ih =>
    rw [after_concat]
    cases last with
    | request asking =>
      rw [Call.lastSeed_request, Call.requests_request, sources_request, Option.map_map]
      by_cases same : asking = core
      · have next := congrArg (Option.map fun pattern => pattern.draw.2) ih
        rw [Option.map_map, Option.map_map] at next
        simp only [same, if_true, LatencySource.drawMany_succ_eq]
        exact next
      · simp only [same, if_false]
        exact ih
    | reseed new =>
      have restarted := congrArg (Option.map (LatencyPattern.restart (coreSeed new core))) ih
      rw [Option.map_map, Option.map_map, sources_reseed, Option.map_map] at restarted
      rw [Call.lastSeed_reseed, Call.requests_reseed, call, sources_reseed, sources_reseed,
        Option.map_map, Option.map_map]
      refine restarted.trans ?_
      congr 1
      funext source
      exact (LatencySource.restart_drawMany _ _ _).trans (source.pattern.restart_restart _ _)

/-- What a model is built from, apart from its seed: a number of cores and ranges for them, or the
    specifications of the cores. -/
inductive Plan
  | ranges (cores : Nat) (given : List (Nat × LatencyRange))
  | specs (given : List CoreSpec)

namespace Plan

variable {plan : Plan}

def build (seed : Nat) : Plan → Except ConfigError LatencyModel
  | .ranges cores given => ofRanges cores given seed
  | .specs given => .ok (ofSpecs given seed)

def Numbered : Plan → Prop
  | .ranges .. => True
  | .specs given => ∀ (index : Nat) (spec : CoreSpec), given[index]? = some spec → spec.id = index

def table? (core : Nat) : Plan → Option (List Nat)
  | .ranges .. => none
  | .specs given => given[core]?.bind CoreSpec.costTable

def uniform (ranges : List LatencyRange) (seed : Nat) : LatencyModel :=
  ⟨ranges.mapIdx fun core range => .uniform range (coreSeed seed core)⟩

theorem reseed_uniform (ranges : List LatencyRange) (first second : Nat) :
    ((uniform ranges first).reseed second).1 = uniform ranges second := by
  simp only [reseed, uniform, List.mapIdx_mapIdx]
  rfl

theorem reseed_ofSpecs {specs : List CoreSpec} (numbered : (Plan.specs specs).Numbered)
    (first second : Nat) : ((ofSpecs specs first).reseed second).1 = ofSpecs specs second := by
  refine congrArg LatencyModel.mk (List.ext_getElem? fun index => ?_)
  simp only [ofSpecs, List.getElem?_mapIdx, List.getElem?_map, Option.map_map]
  cases found : specs[index]? with
  | none => rfl
  | some spec =>
    simp only [Option.map_some, Function.comp_apply, ofSpec, numbered index spec found]
    cases spec.costTable <;> rfl

theorem eq_of_register {cores : Nat} {item entry : Nat × LatencyRange}
    (registered : register cores item = .ok entry) : entry = item ∧ item.1 < cores := by
  unfold register at registered
  split at registered
  · rename_i inside
    obtain ⟨range, checked, same⟩ := exists_of_bind_eq_ok registered
    obtain ⟨rfl, -⟩ := LatencyRange.check_eq_ok_iff.mp checked
    cases same
    exact ⟨rfl, inside⟩
  · cases registered

theorem exists_uniform_of_ofRanges {cores : Nat} {ranges : List (Nat × LatencyRange)}
    (built : ofRanges cores ranges seed = .ok model) :
    ∃ chosen : List LatencyRange, chosen.length = cores ∧
      (∀ core < cores, chosen[core]? = ranges.reverse.lookup core) ∧
      ∀ seed, ofRanges cores ranges seed = .ok (uniform chosen seed) := by
  obtain ⟨table, assigned, built⟩ := exists_of_bind_eq_ok built
  obtain ⟨chosen, completed, -⟩ := exists_of_bind_eq_ok built
  have filled := PerCore.eq_map_some_of_complete completed
  obtain ⟨size, -⟩ := PerCore.exists_of_assign assigned
  obtain ⟨entries, registered, looked⟩ := PerCore.lookup_assign assigned
  obtain ⟨rfl, -⟩ := eq_of_mapM_eq_ok (fun _ _ => eq_of_register) registered
  refine ⟨chosen, ?_, ?_, ?_⟩
  · rw [Array.size_replicate, ← Array.length_toList, filled, List.length_map] at size
    exact size
  · intro core inside
    have value := looked core none (by rw [Array.toList_replicate, List.getElem?_replicate, if_pos inside])
    rw [filled, List.getElem?_map, Option.or_none] at value
    obtain ⟨range, found, same⟩ := Option.map_eq_some_iff.mp value
    rw [found, same]
  · intro seed
    unfold ofRanges
    rw [assigned]
    show (PerCore.complete "memCost" 0 table.toList >>= fun ranges => _) = _
    rw [completed]
    rfl

theorem build_reseed (numbered : plan.Numbered) (built : plan.build seed = .ok model) (other : Nat) :
    plan.build other = .ok (model.reseed other).1 := by
  cases plan with
  | ranges cores ranges =>
    obtain ⟨chosen, -, -, builds⟩ := exists_uniform_of_ofRanges built
    cases built.symm.trans (builds seed)
    rw [reseed_uniform]
    exact builds other
  | specs specs =>
    cases built
    rw [reseed_ofSpecs numbered]
    rfl

theorem table_of_build (numbered : plan.Numbered) (built : plan.build seed = .ok model) {core : Nat}
    {cells : List Nat} (listed : plan.table? core = some cells) :
    model.sources[core]? = some (.table cells) := by
  cases plan with
  | ranges => cases listed
  | specs specs =>
    cases built
    obtain ⟨spec, found, table⟩ := Option.bind_eq_some_iff.mp listed
    rw [ofSpecs, List.getElem?_map, found, Option.map_some, ofSpec, table]

theorem eq_ofSpecs_of_ofRanges {cores : Nat} {ranges : List (Nat × LatencyRange)}
    (built : ofRanges cores ranges seed = .ok model) {specs : List CoreSpec} (length : specs.length = cores)
    (same : ∀ index spec, specs[index]? = some spec → spec.id = index ∧ spec.costTable = none ∧
      ranges.reverse.lookup index = some spec.cost) : model = ofSpecs specs seed := by
  obtain ⟨chosen, size, looked, builds⟩ := exists_uniform_of_ofRanges built
  cases built.symm.trans (builds seed)
  refine congrArg LatencyModel.mk (List.ext_getElem? fun index => ?_)
  rw [List.getElem?_mapIdx, List.getElem?_map]
  cases found : specs[index]? with
  | none =>
    have outside : chosen[index]? = none := by
      rw [List.getElem?_eq_none_iff] at found ⊢
      omega
    rw [outside]
    rfl
  | some spec =>
    obtain ⟨inside, -⟩ := List.getElem?_eq_some_iff.mp found
    obtain ⟨number, random, cost⟩ := same index spec found
    rw [looked index (by omega), cost, Option.map_some, Option.map_some, ofSpec, random, number]

end Plan

/-- Whatever has been asked of a model before, a core is given the latency that a new model with the last
    seed gives it, after as many draws as the core itself has made since then. With a table this is the
    cell of that number. Ranges without tables give the same model however they are registered, and a
    model that starts over from its own seed is the model that it was. -/
theorem draws_forget_history {plan : Plan} (numbered : plan.Numbered) (built : plan.build seed = .ok model) :
    (∀ calls core, ∃ fresh, plan.build (Call.lastSeed seed calls) = .ok fresh ∧
        ((model.after calls).draw? core).map Prod.fst = fresh.nthDraw? core (Call.requests core calls) ∧
        (((model.after calls).draw? core).isSome ↔ core < model.sources.length) ∧
        ∀ cells, plan.table? core = some cells → 0 < cells.length →
          ((model.after calls).draw? core).map Prod.fst =
            cells[Call.requests core calls % cells.length]?) ∧
      (∀ cores ranges specs, ofRanges cores ranges seed = .ok model → specs.length = cores →
        (∀ index spec, specs[index]? = some spec → spec.id = index ∧ spec.costTable = none ∧
          ranges.reverse.lookup index = some spec.cost) → model = ofSpecs specs seed) ∧
      (model.reseed seed).1 = model := by
  have own : (model.reseed seed).1 = model := by
    have again := Plan.build_reseed numbered built seed
    exact (Except.ok.inj (built.symm.trans again)).symm
  refine ⟨fun calls core => ?_, ?_, own⟩
  · have fresh := Plan.build_reseed numbered built (Call.lastSeed seed calls)
    have answer : ((model.after calls).draw? core).map Prod.fst =
        (model.reseed (Call.lastSeed seed calls)).1.nthDraw? core (Call.requests core calls) := by
      have moved := congrArg (Option.map fun pattern => pattern.draw.1) (pattern_after own calls core)
      rw [Option.map_map, Option.map_map] at moved
      rw [map_fst_draw?, nthDraw?_eq]
      exact moved
    refine ⟨_, fresh, answer, ?_, ?_⟩
    · rw [draw?, Option.isSome_map, isSome_getElem?, length_after]
    · intro cells listed nonempty
      have inside := Nat.mod_lt (Call.requests core calls) nonempty
      rw [answer, nthDraw?_eq, Plan.table_of_build numbered fresh listed, Option.map_some,
        LatencySource.draw, LatencySource.pattern_drawMany_table nonempty, LatencyPattern.draw,
        List.getElem?_eq_getElem inside, Option.getD_some]
  · intro cores ranges specs registered length same
    exact Plan.eq_ofSpecs_of_ofRanges registered length same

theorem third_cell_after_reseed :
    (((ofSpecs [⟨0, ⟨.w64, .general⟩, 0, ⟨1, 10⟩, none, .ofPeriod 1000, 0, .halt⟩,
        ⟨1, ⟨.w64, .general⟩, 0, ⟨1, 10⟩, some [4, 5, 6], .ofPeriod 500, 0, .halt⟩] 7).after
      [.request 1, .reseed 3, .request 1, .request 0, .request 9, .request 1]).draw? 1).map Prod.fst =
    some 6 := by
  have numbered : (Plan.specs [⟨0, ⟨.w64, .general⟩, 0, ⟨1, 10⟩, none, .ofPeriod 1000, 0, .halt⟩,
      ⟨1, ⟨.w64, .general⟩, 0, ⟨1, 10⟩, some [4, 5, 6], .ofPeriod 500, 0, .halt⟩]).Numbered := by
    intro index spec found
    match index with
    | 0 | 1 =>
      cases found
      rfl
    | index + 2 => cases found
  obtain ⟨fresh, -, -, -, table⟩ := (draws_forget_history numbered rfl).1
    [.request 1, .reseed 3, .request 1, .request 0, .request 9, .request 1] 1
  exact (table [4, 5, 6] rfl (by decide)).trans (by decide)

end LatencyModel

end CoreTiming
