import CoreTiming.Core.Potential
import CoreTiming.Proofs.Coprocessor.Steps

namespace CoreTiming

structure Ledger where
  outstanding : List Nat
  completions : List OffloadResult
  submitted : Nat
  completed : Nat
  stalls : Nat
  coprocessor : Option Coprocessor

namespace Ledger

def poll (now : Nat) (ledger : Ledger) (handle : Nat) : Ledger :=
  match ledger.coprocessor.bind (·.poll? handle now) with
  | none => ledger
  | some (result, unit, _) =>
    { ledger with
      outstanding := ledger.outstanding.erase result.handle
      completions := ledger.completions ++ [result]
      completed := ledger.completed + 1
      coprocessor := some unit }

def pollAll (now : Nat) (ledger : Ledger) : Ledger :=
  ledger.outstanding.foldl (poll now) ledger

def submit (now : Nat) (work : Offload) (ledger : Ledger) : Ledger :=
  match ledger.coprocessor with
  | none => ledger
  | some unit =>
    match (unit.submit now work).1 with
    | .ok handle =>
      { ledger with
        outstanding := ledger.outstanding ++ [handle]
        submitted := ledger.submitted + 1
        coprocessor := some (unit.submit now work).2.1 }
    | .error _ =>
      { ledger with
        stalls := ledger.stalls + 1
        coprocessor := some (unit.submit now work).2.1 }

def advance (now : Nat) (ledger : Ledger) : Ledger :=
  { ledger with coprocessor := ledger.coprocessor.map fun unit => (unit.edge now).1 }

end Ledger

def Core.offer? (core : Core) : Option Offload :=
  match core.refused with
  | some work => some work
  | none =>
    match core.workload.next? with
    | some (.offload work, _) => some work
    | _ => none

def Core.ledger (core : Core) (coprocessor : Option Coprocessor) : Ledger where
  outstanding := core.outstanding
  completions := core.completions
  submitted := core.counters.submitted
  completed := core.counters.completed
  stalls := core.counters.stalls
  coprocessor := coprocessor

theorem Effects.log_prefix (x y : Effects) : x.log <+: (x ++ y).log :=
  List.prefix_append ..

namespace Turn

def ledger (turn : Turn) : Ledger :=
  turn.core.ledger turn.coprocessor

variable (turn : Turn)

@[simp] theorem ledger_emit (effects : Effects) : (turn.emit effects).ledger = turn.ledger := rfl

@[simp] theorem ledger_note (condition : Bool) (severity : Log.Severity) (message : String)
    (fields : List Log.Field) : (turn.note condition severity message fields).ledger = turn.ledger := rfl

@[simp] theorem ledger_setPhase (phase : Phase) : (turn.setPhase phase).ledger = turn.ledger := rfl

@[simp] theorem ledger_retire : turn.retire.ledger = turn.ledger := rfl

@[simp] theorem ledger_countAccess (kind : AccessKind) (latency : Nat) :
    (turn.countAccess kind latency).ledger = turn.ledger := by
  cases kind <;> rfl

@[simp] theorem ledger_halt : turn.halt.ledger = turn.ledger := by
  unfold halt
  split <;> rfl

@[simp] theorem ledger_haltAtHorizon : turn.haltAtHorizon.ledger = turn.ledger :=
  ledger_halt _

@[simp] theorem ledger_requestEdge (tick : Nat) : (turn.requestEdge tick).ledger = turn.ledger := by
  unfold requestEdge
  split <;> rfl

@[simp] theorem ledger_requestEdgeOrHalt (tick : Option Nat) :
    (turn.requestEdgeOrHalt tick).ledger = turn.ledger := by
  cases tick with
  | none => exact ledger_haltAtHorizon turn
  | some tick => exact ledger_requestEdge turn tick

@[simp] theorem ledger_requestNextEdge : turn.requestNextEdge.ledger = turn.ledger :=
  ledger_requestEdgeOrHalt ..

@[simp] theorem ledger_requestFirstEdge : turn.requestFirstEdge.ledger = turn.ledger :=
  ledger_requestEdgeOrHalt ..

@[simp] theorem ledger_keepPolling : turn.keepPolling.ledger = turn.ledger := by
  unfold keepPolling
  split
  · rfl
  · exact ledger_requestNextEdge turn

@[simp] theorem ledger_sleepUntil (resume : Nat) : (turn.sleepUntil resume).ledger = turn.ledger := by
  unfold sleepUntil
  split <;> exact ledger_requestEdge turn _

@[simp] theorem ledger_drainThenHalt : turn.drainThenHalt.ledger = turn.ledger := by
  unfold drainThenHalt
  split
  · exact ledger_halt turn
  · exact ledger_requestNextEdge _

@[simp] theorem ledger_raise (fault : Fault) : (turn.raise fault).ledger = turn.ledger := rfl

@[simp] theorem ledger_request (address : Nat) (kind : AccessKind) :
    (turn.request address kind).1.ledger = turn.ledger := by
  unfold request
  simp only
  split
  · rfl
  · split
    · rfl
    · cases kind <;> rfl

theorem ledger_load (address : Nat) : (turn.load address).ledger = turn.ledger := by
  unfold load
  simp only
  split <;> simp

theorem ledger_store (address : Nat) : (turn.store address).ledger = turn.ledger := by
  unfold store
  simp only
  split
  · rw [ledger_requestNextEdge]
    exact ledger_request turn address .store
  · simp

theorem ledger_offload (work : Offload) :
    (turn.offload work).ledger = turn.ledger.submit turn.now work := by
  unfold offload Ledger.submit
  cases found : turn.coprocessor with
  | none =>
    have same : turn.ledger.coprocessor = none := found
    simp only [same, ledger_raise]
  | some unit =>
    have same : turn.ledger.coprocessor = some unit := found
    simp only [same]
    cases (unit.submit turn.now work).1 with
    | ok handle =>
      simp only [ledger_requestNextEdge]
      rfl
    | error refusal =>
      simp only [ledger_requestNextEdge, ledger_note]
      rfl

theorem isHalted_halt : turn.halt.core.isHalted = true := by
  unfold halt
  split
  · assumption
  · rfl

/-- After the horizon there is no edge at which a core could see its offload complete. -/
theorem isHalted_offload (equipped : turn.coprocessor.isSome) (late : horizon ≤ turn.now)
    (work : Offload) : (turn.offload work).core.isHalted = true := by
  obtain ⟨unit, attached⟩ := Option.isSome_iff_exists.mp equipped
  have halts : ∀ after : Turn, after.now = turn.now → after.requestNextEdge.core.isHalted = true := by
    intro after same
    unfold requestNextEdge
    cases found : after.core.clock.edgeAfter? after.now with
    | none => exact isHalted_halt _
    | some edge =>
      have bounds := Clock.lt_of_edgeAfter? found
      omega
  unfold offload
  simp only [attached]
  cases (unit.submit turn.now work).1 with
  | ok handle => exact halts _ rfl
  | error refusal => exact halts _ rfl

theorem ledger_compute (cycle cycles : Nat) : (turn.compute cycle cycles).ledger = turn.ledger :=
  ledger_sleepUntil ..

theorem ledger_wait : turn.wait.ledger = turn.ledger := by
  unfold wait
  simp only
  split <;> exact ledger_requestNextEdge _

theorem ledger_execute (cycle : Nat) (operation : Operation) :
    (turn.execute cycle operation).ledger = match operation with
      | .offload work => turn.ledger.submit turn.now work
      | _ => turn.ledger := by
  unfold execute
  cases operation with
  | compute cycles => exact ledger_compute ..
  | load address => exact ledger_load ..
  | store address => exact ledger_store ..
  | offload work => exact ledger_offload ..
  | wait => exact ledger_wait _
  | halt => exact ledger_drainThenHalt _

theorem isHalted_execute (equipped : turn.coprocessor.isSome) (late : horizon ≤ turn.now) (cycle : Nat)
    (work : Offload) : (turn.execute cycle (.offload work)).core.isHalted = true := by
  unfold execute
  refine isHalted_offload _ ?_ ?_ work
  · exact equipped
  · exact late

def Submits (work : Offload) (before after : Turn) : Prop :=
  before.core.offer? = some work ∧ after.ledger = before.ledger.submit before.now work ∧
    (before.coprocessor.isSome → horizon ≤ before.now → after.core.isHalted = true)

theorem ledger_issue (cycle : Nat) :
    (turn.issue cycle).ledger = turn.ledger ∨ ∃ work, turn.Submits work (turn.issue cycle) := by
  unfold issue Submits Core.offer?
  cases turn.core.refused with
  | some work =>
    refine .inr ⟨work, rfl, ?_, ?_⟩
    · exact ledger_execute (turn.setCore { turn.core with refused := none }) cycle (.offload work)
    · intro equipped late
      exact isHalted_execute (turn.setCore { turn.core with refused := none }) equipped late cycle work
  | none =>
    cases turn.core.workload.next? with
    | none => exact .inl (ledger_drainThenHalt turn)
    | some taken =>
      obtain ⟨operation, workload⟩ := taken
      have executed := ledger_execute (turn.setCore (turn.core.advance workload)) cycle operation
      cases operation with
      | offload work =>
        refine .inr ⟨work, rfl, executed, fun equipped late => ?_⟩
        exact isHalted_execute (turn.setCore (turn.core.advance workload)) equipped late cycle work
      | compute | load | store | wait | halt => exact .inl executed

theorem ledger_poll (handle : Nat) : (turn.poll handle).ledger = turn.ledger.poll turn.now handle := by
  unfold poll Ledger.poll
  cases found : turn.coprocessor.bind (·.poll? handle turn.now) with
  | none =>
    have same : turn.ledger.coprocessor.bind (·.poll? handle turn.now) = none := found
    simp only [same]
  | some outcome =>
    have same : turn.ledger.coprocessor.bind (·.poll? handle turn.now) = some outcome := found
    simp only [same]
    rfl

/-- The turns differ at most in their ledgers, and in what was recorded and logged. -/
def Polls (before after : Turn) : Prop :=
  ∃ outstanding completions counters coprocessor effects,
    after = { before with
      core := { before.core with
        outstanding := outstanding
        completions := completions
        counters := counters }
      coprocessor := coprocessor
      effects := effects } ∧
    effects.posts = before.effects.posts ∧ coprocessor.isSome = before.coprocessor.isSome

theorem polls_refl : turn.Polls turn :=
  ⟨_, _, _, _, _, rfl, rfl, rfl⟩

theorem Polls.trans {first second third : Turn} (one : first.Polls second) (other : second.Polls third) :
    first.Polls third := by
  obtain ⟨_, _, _, _, _, rfl, posts, equipped⟩ := one
  obtain ⟨_, _, _, _, _, rfl, laterPosts, laterEquipped⟩ := other
  exact ⟨_, _, _, _, _, rfl, laterPosts.trans posts, laterEquipped.trans equipped⟩

theorem polls_poll (handle : Nat) : turn.Polls (turn.poll handle) := by
  unfold poll
  cases found : turn.coprocessor.bind (·.poll? handle turn.now) with
  | none => exact turn.polls_refl
  | some outcome =>
    obtain ⟨result, unit, effects⟩ := outcome
    obtain ⟨former, attached, polled⟩ := Option.bind_eq_some_iff.mp found
    have silent := (Coprocessor.poll?_eq_some polled).1
    refine ⟨_, _, _, _, _, rfl, ?_, ?_⟩
    · show (((turn.effects ++ effects) ++ Effects.record ..) ++ Effects.lineIf ..).posts = turn.effects.posts
      simp [silent]
    · rw [attached]
      rfl

theorem pollAll_induction {relation : Turn → Turn → Prop} (refl : ∀ turn, relation turn turn)
    (trans : ∀ {first second third}, relation first second → relation second third → relation first third)
    (step : ∀ turn handle, relation turn (turn.poll handle)) : relation turn turn.pollAll := by
  have fold : ∀ (handles : List Nat) (turn : Turn), relation turn (handles.foldl poll turn) := by
    intro handles
    induction handles with
    | nil => exact refl
    | cons handle handles ih => exact fun turn => trans (step turn handle) (ih _)
  exact fold _ turn

theorem polls_pollAll : turn.Polls turn.pollAll :=
  turn.pollAll_induction polls_refl Polls.trans polls_poll

theorem ledger_pollAll : turn.pollAll.ledger = turn.ledger.pollAll turn.now := by
  have fold : ∀ (handles : List Nat) (turn : Turn),
      (handles.foldl poll turn).ledger = handles.foldl (Ledger.poll turn.now) turn.ledger := by
    intro handles
    induction handles with
    | nil => exact fun _ => rfl
    | cons handle handles ih =>
      intro turn
      have rest := ih (turn.poll handle)
      rw [ledger_poll, now_poll] at rest
      exact rest
  exact fold _ turn

theorem ledger_proceed :
    turn.proceed.ledger = turn.ledger ∨ ∃ work, turn.Submits work turn.proceed := by
  unfold proceed
  simp only
  split
  · exact .inl rfl
  · exact .inl rfl
  · exact .inl (ledger_keepPolling turn)
  · split
    · exact .inl (ledger_sleepUntil turn _)
    · exact ledger_issue (turn.retire.setPhase .running) _
  · split
    · exact .inl (ledger_keepPolling turn)
    · split
      · exact .inl (ledger_halt turn)
      · exact ledger_issue (turn.setPhase .running) _
  · exact ledger_issue turn _

theorem coreEdge_of_eq (due : turn.core.nextEdge = some turn.now) (awake : turn.core.isHalted = false) :
    turn.coreEdge = (turn.setCore { turn.core with nextEdge := none }).pollAll.proceed := by
  have still : ¬ (turn.setCore { turn.core with nextEdge := none }).core.isHalted = true := by
    rw [← Bool.not_eq_true] at awake
    exact awake
  unfold coreEdge
  rw [if_neg (by simpa using due)]
  exact if_neg still

theorem ledger_coreEdge (due : turn.core.nextEdge = some turn.now) (awake : turn.core.isHalted = false) :
    turn.coreEdge.ledger = turn.ledger.pollAll turn.now ∨
      ∃ work, turn.core.offer? = some work ∧
        turn.coreEdge.ledger = (turn.ledger.pollAll turn.now).submit turn.now work ∧
        (turn.coprocessor.isSome → horizon ≤ turn.now → turn.coreEdge.core.isHalted = true) := by
  let cleared := turn.setCore { turn.core with nextEdge := none }
  have polled : cleared.pollAll.ledger = turn.ledger.pollAll turn.now := ledger_pollAll cleared
  obtain ⟨_, _, _, coprocessor, _, frame, -, still⟩ := polls_pollAll cleared
  have equipped : cleared.pollAll.coprocessor.isSome = turn.coprocessor.isSome := by
    rw [frame]
    exact still
  have offer : cleared.pollAll.core.offer? = turn.core.offer? := by
    rw [frame]
    rfl
  have now : cleared.pollAll.now = turn.now := by
    rw [frame]
    rfl
  rw [coreEdge_of_eq turn due awake]
  rcases ledger_proceed cleared.pollAll with same | ⟨work, offered, submitted, last⟩
  · exact .inl (same.trans polled)
  · rw [offer] at offered
    rw [polled, now] at submitted
    rw [equipped, now] at last
    exact .inr ⟨work, offered, submitted, last⟩

theorem ledger_response (address : Nat) (kind : AccessKind) (issuedAt : Nat) :
    (turn.response address kind issuedAt).ledger = turn.ledger := by
  unfold response
  cases kind with
  | store => rfl
  | load =>
    simp only
    split
    · exact ledger_requestFirstEdge _
    · rfl

theorem ledger_fault (fault : Fault) : (turn.fault fault).ledger = turn.ledger := by
  unfold Turn.fault
  simp only
  split
  · exact ledger_halt _
  · exact ledger_requestNextEdge _

end Turn

end CoreTiming
