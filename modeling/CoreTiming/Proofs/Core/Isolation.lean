import CoreTiming.Proofs.Coprocessor.Effects
import CoreTiming.Proofs.Core.Extension

namespace CoreTiming

namespace LatencyModel

/-- The model as one core sees it, without the latencies of the others. -/
def only (model : LatencyModel) (core : Nat) : LatencyModel :=
  ⟨List.replicate core (.table []) ++ model.sources[core]?.toList⟩

variable {model after : LatencyModel} {core latency : Nat}

theorem getElem?_only (model : LatencyModel) (core : Nat) :
    (model.only core).sources[core]? = model.sources[core]? := by
  unfold only
  rw [List.getElem?_append_right (Nat.le_of_eq List.length_replicate), List.length_replicate,
    Nat.sub_self]
  cases model.sources[core]? <;> rfl

theorem only_congr {other : LatencyModel} (same : model.sources[core]? = other.sources[core]?) :
    model.only core = other.only core := by
  unfold only
  rw [same]

theorem draw?_only (model : LatencyModel) (core : Nat) :
    (model.only core).draw? core = (model.draw? core).map fun drawn => (drawn.1, drawn.2.only core) := by
  unfold draw?
  rw [getElem?_only]
  cases found : model.sources[core]? with
  | none => rfl
  | some source =>
    obtain ⟨known, -⟩ := List.getElem?_eq_some_iff.mp found
    have own : (model.only core).sources.set core source.draw.2 =
        List.replicate core (.table []) ++ [source.draw.2] := by
      unfold only
      rw [found, List.set_append_right _ _ (Nat.le_of_eq List.length_replicate), List.length_replicate,
        Nat.sub_self]
      rfl
    have next : (model.sources.set core source.draw.2)[core]? = some source.draw.2 :=
      List.getElem?_set_self known
    have lone : (⟨model.sources.set core source.draw.2⟩ : LatencyModel).only core =
        ⟨List.replicate core (.table []) ++ [source.draw.2]⟩ := by
      unfold only
      rw [next]
      rfl
    simp only [Option.map_some, own, lone]

theorem getElem?_of_draw? (drawn : model.draw? core = some (latency, after)) {other : Nat}
    (different : other ≠ core) : after.sources[other]? = model.sources[other]? := by
  obtain ⟨source, -, same⟩ := Option.map_eq_some_iff.mp drawn
  cases same
  exact List.getElem?_set_ne (Ne.symm different)

end LatencyModel

def Record.concerns (core : Nat) (record : Record) : Bool :=
  record.component = s!"cpu.{coreName core}" || record.component = s!"cpu.{coreName core}.co_proc"

theorem Record.digits_of_concerns {core : Nat} {record : Record} (concerns : record.concerns core = true) :
    ((record.component.toList.drop 8).takeWhile Char.isDigit) = Nat.toDigits 10 core := by
  have digits : ∀ suffix : List Char, suffix.takeWhile Char.isDigit = [] →
      (Nat.toDigits 10 core ++ suffix).takeWhile Char.isDigit = Nat.toDigits 10 core := by
    intro suffix none
    rw [List.takeWhile_append_of_pos fun digit member =>
      Nat.isDigit_of_mem_toDigits (by decide) (by decide) member, none, List.append_nil]
  have named : (s!"cpu.{coreName core}").toList = "cpu.core".toList ++ Nat.toDigits 10 core := by
    simp [coreName, toString]
  unfold Record.concerns at concerns
  rcases (Bool.or_eq_true ..).mp concerns with same | same
  · rw [of_decide_eq_true same, named]
    have plain := digits [] rfl
    rw [List.append_nil] at plain
    exact plain
  · have longer : (s!"cpu.{coreName core}.co_proc").toList =
        "cpu.core".toList ++ (Nat.toDigits 10 core ++ ".co_proc".toList) := by
      simp [coreName, toString]
    rw [of_decide_eq_true same, longer]
    exact digits _ rfl

theorem Record.eq_of_concerns {core other : Nat} {record : Record} (one : record.concerns core = true)
    (two : record.concerns other = true) : core = other := by
  have digits := (digits_of_concerns one).symm.trans (digits_of_concerns two)
  rw [← Nat.ofDigitChars_ten_toDigits (n := core), digits, Nat.ofDigitChars_ten_toDigits]

theorem Core.concerns_name (core : Core) (statistic : Statistic) (value : Nat) :
    Record.concerns core.id ⟨core.name, statistic, value⟩ = true := by
  simp [Record.concerns, Core.name]

theorem Coprocessor.concerns_name (unit : Coprocessor) (statistic : Statistic) (value : Nat) :
    Record.concerns unit.owner ⟨unit.name, statistic, value⟩ = true := by
  simp [Record.concerns, Coprocessor.name]

namespace Coprocessor

theorem concerns_edge (unit : Coprocessor) (now : Nat) :
    ∀ record ∈ (unit.edge now).2.records, record.concerns unit.owner = true := by
  intro record member
  obtain ⟨duration, rfl⟩ := of_mem_records_edge member
  exact unit.concerns_name ..

end Coprocessor

namespace Turn

def alone (turn : Turn) : Turn :=
  { turn with latency := turn.latency.only turn.core.id }

/-- The coprocessor is that of the core, and so is everything that has been recorded. -/
structure Private (turn : Turn) : Prop where
  owned : ∀ unit, turn.coprocessor = some unit → unit.owner = turn.core.id
  records : ∀ record ∈ turn.effects.records, record.concerns turn.core.id = true

/-- A step has led from `before` to `after`, and alone it leads to `lone`. -/
structure Isolated (before after lone : Turn) : Prop where
  alone : lone = after.alone
  id : after.core.id = before.core.id
  others : ∀ core, core ≠ before.core.id → after.latency.sources[core]? = before.latency.sources[core]?
  keeps : before.Private → after.Private

variable (turn : Turn)

theorem Isolated.refl : turn.Isolated turn turn.alone where
  alone := rfl
  id := rfl
  others := fun _ _ => rfl
  keeps := fun owned => owned

theorem Isolated.trans {first second third lone last : Turn} (one : first.Isolated second lone)
    (other : second.Isolated third last) : first.Isolated third last where
  alone := other.alone
  id := other.id.trans one.id
  others := by
    intro core different
    rw [← one.others core different]
    exact other.others core (one.id ▸ different)
  keeps := fun owned => other.keeps (one.keeps owned)

theorem Isolated.ite {first yes no lone only : Turn} {condition : Prop} [Decidable condition]
    (one : condition → first.Isolated yes lone) (other : ¬ condition → first.Isolated no only) :
    first.Isolated (if condition then yes else no) (if condition then lone else only) := by
  split
  · exact one (by assumption)
  · exact other (by assumption)

theorem isolated_setCore {core : Core} (id : core.id = turn.core.id) :
    turn.Isolated (turn.setCore core) (turn.alone.setCore core) where
  alone := by
    unfold alone setCore
    rw [id]
  id := id
  others := fun _ _ => rfl
  keeps := by
    intro owned
    refine ⟨?_, ?_⟩
    · exact fun unit attached => (owned.owned unit attached).trans id.symm
    · show ∀ record ∈ turn.effects.records, record.concerns core.id = true
      rw [id]
      exact owned.records

theorem isolated_emit {effects : Effects} (own : turn.Private → ∀ record ∈ effects.records,
    record.concerns turn.core.id = true) : turn.Isolated (turn.emit effects) (turn.alone.emit effects) where
  alone := rfl
  id := rfl
  others := fun _ _ => rfl
  keeps := by
    intro owned
    refine ⟨owned.owned, ?_⟩
    intro record member
    rcases List.mem_append.mp member with before | new
    · exact owned.records record before
    · exact own owned record new

theorem isolated_emit_of_silent {effects : Effects} (silent : effects.records = []) :
    turn.Isolated (turn.emit effects) (turn.alone.emit effects) := by
  refine turn.isolated_emit ?_
  intro _ record member
  rw [silent] at member
  cases member

theorem isolated_note (condition : Bool) (severity : Log.Severity) (message : String)
    (fields : List Log.Field) : turn.Isolated (turn.note condition severity message fields)
      (turn.alone.note condition severity message fields) :=
  turn.isolated_emit_of_silent (Effects.records_lineIf ..)

theorem isolated_setPhase (phase : Phase) : turn.Isolated (turn.setPhase phase) (turn.alone.setPhase phase) :=
  turn.isolated_setCore rfl

theorem isolated_retire : turn.Isolated turn.retire turn.alone.retire :=
  turn.isolated_setCore rfl

theorem isolated_halt : turn.Isolated turn.halt turn.alone.halt := by
  refine .ite (fun _ => .refl turn) (fun _ => ?_)
  refine .trans (turn.isolated_setCore ?_) (isolated_note ..)
  rfl

theorem isolated_haltAtHorizon : turn.Isolated turn.haltAtHorizon turn.alone.haltAtHorizon :=
  .trans (turn.isolated_note ..) (isolated_halt _)

theorem isolated_requestEdge (tick : Nat) :
    turn.Isolated (turn.requestEdge tick) (turn.alone.requestEdge tick) := by
  refine .ite (fun _ => .refl turn) (fun _ => ?_)
  refine .trans (turn.isolated_setCore ?_) (isolated_emit_of_silent _ rfl)
  rfl

theorem isolated_requestEdgeOrHalt (tick : Option Nat) :
    turn.Isolated (turn.requestEdgeOrHalt tick) (turn.alone.requestEdgeOrHalt tick) := by
  cases tick with
  | none => exact turn.isolated_haltAtHorizon
  | some tick => exact turn.isolated_requestEdge tick

theorem isolated_requestNextEdge : turn.Isolated turn.requestNextEdge turn.alone.requestNextEdge :=
  turn.isolated_requestEdgeOrHalt _

theorem isolated_requestFirstEdge : turn.Isolated turn.requestFirstEdge turn.alone.requestFirstEdge :=
  turn.isolated_requestEdgeOrHalt _

theorem isolated_keepPolling : turn.Isolated turn.keepPolling turn.alone.keepPolling :=
  .ite (fun _ => .refl turn) fun _ => turn.isolated_requestNextEdge

theorem isolated_sleepUntil (resume : Nat) :
    turn.Isolated (turn.sleepUntil resume) (turn.alone.sleepUntil resume) := by
  unfold sleepUntil
  rw [show turn.alone.core = turn.core from rfl, show turn.alone.now = turn.now from rfl]
  cases turn.core.clock.edgeAfter? turn.now <;> exact turn.isolated_requestEdge _

theorem isolated_drainThenHalt : turn.Isolated turn.drainThenHalt turn.alone.drainThenHalt :=
  .ite (fun _ => turn.isolated_halt) fun _ => .trans (turn.isolated_setPhase _) (isolated_requestNextEdge _)

theorem isolated_raise (fault : Fault) : turn.Isolated (turn.raise fault) (turn.alone.raise fault) :=
  .trans (turn.isolated_setPhase _) (isolated_emit_of_silent _ rfl)

theorem isolated_draw {latency : Nat} {model : LatencyModel}
    (drawn : turn.latency.draw? turn.core.id = some (latency, model)) :
    turn.Isolated { turn with latency := model } { turn with latency := model.only turn.core.id } where
  alone := rfl
  id := rfl
  others := fun _ different => LatencyModel.getElem?_of_draw? drawn different
  keeps := fun owned => ⟨owned.owned, owned.records⟩

theorem isolated_unregistered (core : Option Nat) :
    turn.Isolated { turn with unregistered := core } { turn.alone with unregistered := core } where
  alone := rfl
  id := rfl
  others := fun _ _ => rfl
  keeps := fun owned => ⟨owned.owned, owned.records⟩

theorem isolated_request (address : Nat) (kind : AccessKind) :
    turn.Isolated (turn.request address kind).1 (turn.alone.request address kind).1 ∧
      (turn.alone.request address kind).2 = (turn.request address kind).2 := by
  have draws : turn.alone.latency.draw? turn.core.id =
      (turn.latency.draw? turn.core.id).map fun drawn => (drawn.1, drawn.2.only turn.core.id) :=
    LatencyModel.draw?_only ..
  unfold request
  simp only
  rw [show turn.alone.core = turn.core from rfl, show turn.alone.memory = turn.memory from rfl, draws]
  cases turn.memory.check turn.core.id address kind with
  | error fault => exact ⟨turn.isolated_raise fault, rfl⟩
  | ok =>
    cases drawn : turn.latency.draw? turn.core.id with
    | none => exact ⟨turn.isolated_unregistered _, rfl⟩
    | some outcome =>
      obtain ⟨latency, model⟩ := outcome
      refine ⟨(turn.isolated_draw drawn).trans (.trans (isolated_setCore _ ?_) (isolated_emit _ ?_)), rfl⟩
      · rfl
      · intro _ record member
        rw [List.mem_singleton.mp member]
        exact Core.concerns_name turn.core ..

theorem isolated_load (address : Nat) : turn.Isolated (turn.load address) (turn.alone.load address) := by
  obtain ⟨requested, granted⟩ := turn.isolated_request address .load
  unfold load
  simp only [granted]
  split_ifs
  · rw [requested.alone]
    exact requested.trans (.trans (isolated_setPhase ..) (isolated_keepPolling _))
  · exact requested

theorem isolated_store (address : Nat) : turn.Isolated (turn.store address) (turn.alone.store address) := by
  obtain ⟨requested, granted⟩ := turn.isolated_request address .store
  unfold store
  simp only [granted]
  split_ifs
  · rw [requested.alone]
    refine requested.trans (.trans (isolated_setCore _ ?_) (isolated_requestNextEdge _))
    rfl
  · exact requested

theorem isolated_lend {unit : Coprocessor} {effects : Effects}
    (owned : turn.Private → unit.owner = turn.core.id ∧
      ∀ record ∈ effects.records, record.concerns turn.core.id = true) :
    turn.Isolated ({ turn with coprocessor := some unit }.emit effects)
      ({ turn.alone with coprocessor := some unit }.emit effects) where
  alone := rfl
  id := rfl
  others := fun _ _ => rfl
  keeps := by
    intro before
    obtain ⟨owner, own⟩ := owned before
    refine ⟨?_, ?_⟩
    · intro lent same
      cases same
      exact owner
    · intro record member
      rcases List.mem_append.mp member with early | new
      · exact before.records record early
      · exact own record new

theorem isolated_offload (work : Offload) : turn.Isolated (turn.offload work) (turn.alone.offload work) := by
  unfold offload
  rw [show turn.alone.coprocessor = turn.coprocessor from rfl]
  cases attached : turn.coprocessor with
  | none => exact turn.isolated_raise _
  | some unit =>
    have lent : turn.Isolated
        ({ turn with coprocessor := some (unit.submit turn.now work).2.1 }.emit
          (unit.submit turn.now work).2.2)
        ({ turn.alone with coprocessor := some (unit.submit turn.now work).2.1 }.emit
          (unit.submit turn.now work).2.2) := by
      refine turn.isolated_lend fun before => ⟨?_, ?_⟩
      · exact (unit.asks_submit turn.now work).1.1.trans (before.owned unit attached)
      · rw [unit.records_submit]
        simp
    simp only
    rw [show turn.alone.now = turn.now from rfl]
    cases (unit.submit turn.now work).1 with
    | ok handle =>
      refine lent.trans (.trans (isolated_setCore _ ?_) (isolated_requestNextEdge _))
      rfl
    | error refusal =>
      refine lent.trans (.trans (isolated_setCore _ ?_) (.trans (isolated_note ..)
        (isolated_requestNextEdge _)))
      rfl

theorem isolated_compute (cycle cycles : Nat) :
    turn.Isolated (turn.compute cycle cycles) (turn.alone.compute cycle cycles) :=
  .trans (turn.isolated_setPhase _) (isolated_sleepUntil ..)

theorem isolated_wait : turn.Isolated turn.wait turn.alone.wait := by
  unfold wait
  simp only
  rw [show turn.alone.retire = turn.retire.alone from rfl]
  by_cases idle : turn.core.outstanding.isEmpty = true
  · rw [if_pos (show turn.retire.core.outstanding.isEmpty = true from idle),
      if_pos (show turn.retire.alone.core.outstanding.isEmpty = true from idle)]
    exact turn.isolated_retire.trans (isolated_requestNextEdge _)
  · rw [if_neg (show ¬ turn.retire.core.outstanding.isEmpty = true from idle),
      if_neg (show ¬ turn.retire.alone.core.outstanding.isEmpty = true from idle)]
    exact turn.isolated_retire.trans (.trans (isolated_setPhase ..) (isolated_requestNextEdge _))

theorem isolated_execute (cycle : Nat) (operation : Operation) :
    turn.Isolated (turn.execute cycle operation) (turn.alone.execute cycle operation) := by
  have noted := turn.isolated_note turn.core.logsOperations .trace "issue"
    [.ofNat "pc" turn.core.pc, ⟨"op", operation.text, false⟩]
  refine noted.trans ?_
  cases operation with
  | compute cycles => exact isolated_compute ..
  | load address => exact isolated_load ..
  | store address => exact isolated_store ..
  | offload work => exact isolated_offload ..
  | wait => exact isolated_wait _
  | halt => exact .trans (isolated_retire _) (isolated_drainThenHalt _)

theorem isolated_issue (cycle : Nat) : turn.Isolated (turn.issue cycle) (turn.alone.issue cycle) := by
  unfold issue
  rw [show turn.alone.core = turn.core from rfl]
  cases turn.core.refused with
  | some work =>
    refine .trans (turn.isolated_setCore ?_) (isolated_execute ..)
    rfl
  | none =>
    cases turn.core.workload.next? with
    | none => exact turn.isolated_drainThenHalt
    | some taken =>
      refine .trans (turn.isolated_setCore ?_) (isolated_execute ..)
      rfl

theorem isolated_poll (handle : Nat) : turn.Isolated (turn.poll handle) (turn.alone.poll handle) := by
  unfold poll
  rw [show turn.alone.coprocessor = turn.coprocessor from rfl, show turn.alone.now = turn.now from rfl]
  cases found : turn.coprocessor.bind (·.poll? handle turn.now) with
  | none => exact .refl turn
  | some outcome =>
    obtain ⟨result, unit, effects⟩ := outcome
    obtain ⟨former, attached, polled⟩ := Option.bind_eq_some_iff.mp found
    have lent : turn.Isolated ({ turn with coprocessor := some unit }.emit effects)
        ({ turn.alone with coprocessor := some unit }.emit effects) := by
      refine turn.isolated_lend fun before => ⟨?_, ?_⟩
      · exact (Coprocessor.asks_poll? polled).1.trans (before.owned former attached)
      · rw [Coprocessor.records_poll? polled]
        simp
    refine lent.trans (.trans (isolated_setCore _ ?_) (.trans (isolated_emit _ ?_) (isolated_note ..)))
    · rfl
    · intro _ record member
      rw [List.mem_singleton.mp member]
      exact Core.concerns_name ..

theorem isolated_pollAll : turn.Isolated turn.pollAll turn.alone.pollAll := by
  have fold : ∀ (handles : List Nat) (turn : Turn),
      turn.Isolated (handles.foldl poll turn) (handles.foldl poll turn.alone) := by
    intro handles
    induction handles with
    | nil => exact fun turn => .refl turn
    | cons handle handles ih =>
      intro turn
      have polled := turn.isolated_poll handle
      rw [List.foldl_cons, List.foldl_cons, polled.alone]
      exact polled.trans (ih _)
  exact fold _ turn

theorem isolated_proceed : turn.Isolated turn.proceed turn.alone.proceed := by
  unfold proceed
  simp only
  rw [show turn.alone.core = turn.core from rfl, show turn.alone.now = turn.now from rfl]
  cases turn.core.phase with
  | halted | waitFault => exact .refl turn
  | waitMemory => exact turn.isolated_keepPolling
  | busy last =>
    refine .ite (fun _ => turn.isolated_sleepUntil _) fun _ => ?_
    exact turn.isolated_retire.trans (.trans (isolated_setPhase ..) (isolated_issue ..))
  | waitOffloads thenHalt =>
    refine .ite (fun _ => turn.isolated_keepPolling) fun _ => ?_
    refine .ite (fun _ => turn.isolated_halt) fun _ => ?_
    exact (turn.isolated_setPhase _).trans (isolated_issue ..)
  | running => exact turn.isolated_issue _

theorem isolated_coreEdge : turn.Isolated turn.coreEdge turn.alone.coreEdge := by
  refine .ite (fun _ => .refl turn) fun _ => ?_
  have cleared : turn.Isolated (turn.setCore { turn.core with nextEdge := none })
      (turn.alone.setCore { turn.core with nextEdge := none }) := turn.isolated_setCore rfl
  refine .ite (fun _ => cleared) fun _ => ?_
  have polled := isolated_pollAll (turn.setCore { turn.core with nextEdge := none })
  refine cleared.trans ?_
  show Isolated _ _ (turn.setCore { turn.core with nextEdge := none }).alone.pollAll.proceed
  rw [polled.alone]
  exact polled.trans (isolated_proceed _)

theorem isolated_coprocessorEdge : turn.Isolated turn.coprocessorEdge turn.alone.coprocessorEdge := by
  unfold coprocessorEdge
  rw [show turn.alone.coprocessor = turn.coprocessor from rfl]
  cases attached : turn.coprocessor with
  | none => exact .refl turn
  | some unit =>
    refine turn.isolated_lend fun before => ?_
    have owner := before.owned unit attached
    rw [← owner]
    exact ⟨unit.owner_edge turn.now, unit.concerns_edge turn.now⟩

theorem isolated_response (address : Nat) (kind : AccessKind) (issuedAt : Nat) :
    turn.Isolated (turn.response address kind issuedAt) (turn.alone.response address kind issuedAt) := by
  have noted := turn.isolated_note turn.core.logsOperations .trace "memory response" [
    .ofNat "address" address, ⟨"kind", kind.name, false⟩,
    .ofNat "latency_ticks" (turn.now - issuedAt)]
  refine noted.trans ?_
  cases kind with
  | store =>
    refine isolated_setCore _ ?_
    rfl
  | load =>
    refine .ite (fun _ => ?_) fun _ => .refl _
    exact .trans (isolated_retire _) (.trans (isolated_setPhase ..) (isolated_requestFirstEdge _))

theorem isolated_fault (fault : Fault) : turn.Isolated (turn.fault fault) (turn.alone.fault fault) := by
  have counted : turn.Isolated
      (turn.count fun counters => { counters with faults := counters.faults + 1 })
      (turn.alone.count fun counters => { counters with faults := counters.faults + 1 }) :=
    turn.isolated_setCore rfl
  have noted := counted.trans (isolated_note _ true .warn fault.message [
    .ofNat "pc" turn.core.pc, ⟨"policy", policyName turn.core.faultPolicy, false⟩])
  unfold Turn.fault
  rw [show turn.alone.core = turn.core from rfl]
  cases policy : turn.core.faultPolicy with
  | halt =>
    rw [policy] at noted
    exact noted.trans (isolated_halt _)
  | «continue» =>
    rw [policy] at noted
    exact noted.trans (.trans (isolated_setPhase ..) (isolated_requestNextEdge _))

theorem isolated_deliver (event : Event) :
    turn.Isolated (turn.deliver event) (turn.alone.deliver event) := by
  cases event with
  | coreEdge core => exact turn.isolated_coreEdge
  | coprocessorEdge core => exact turn.isolated_coprocessorEdge
  | response core address kind issuedAt => exact turn.isolated_response ..
  | fault core fault => exact turn.isolated_fault fault

end Turn

end CoreTiming
