import CoreTiming.Proofs.Core.Books
import CoreTiming.Proofs.Core.Delivery

namespace CoreTiming

structure Core.Stands (spec : Option CoprocessorSpec) (notes : Notes) (since now : Nat)
    (agenda : List (Nat × Event)) (log : List Log.Line) (core : Core) (coprocessor : Option Coprocessor) :
    Prop where
  order : since ≤ now
  resumes : core.Resumes since agenda log
  books : ∀ made, spec = some made → ∃ unit, coprocessor = some unit ∧
    core.Books (.ofSpec made) notes since now unit

namespace Core.Stands

variable {spec : Option CoprocessorSpec} {notes : Notes} {since now : Nat} {agenda : List (Nat × Event)}
  {log : List Log.Line} {core : Core} {coprocessor : Option Coprocessor}

theorem wait (stands : core.Stands spec notes since now agenda log coprocessor) {later : Nat}
    (order : now ≤ later) (within : later ≤ horizon)
    (waits : ∀ unit, coprocessor = some unit → ∀ edge, unit.nextEdge = some edge → later ≤ edge) :
    core.Stands spec notes since later agenda log coprocessor where
  order := Nat.le_trans stands.order order
  resumes := stands.resumes
  books := by
    intro made equipped
    obtain ⟨unit, attached, books⟩ := stands.books made equipped
    exact ⟨unit, attached, books.wait order within (waits unit attached)⟩

theorem log_mono (stands : core.Stands spec notes since now agenda log coprocessor)
    {longer : List Log.Line} (subset : log ⊆ longer) :
    core.Stands spec notes since now agenda longer coprocessor :=
  { stands with resumes := stands.resumes.mono subset core.storesInFlight }

end Core.Stands

namespace Turn

variable {spec : Option CoprocessorSpec} {notes : Notes} {since : Nat} {rest agenda : List (Nat × Event)}
  {log : List Log.Line} {turn after : Turn}

def StandsAfter (spec : Option CoprocessorSpec) (notes : Notes) (rest : List (Nat × Event))
    (log : List Log.Line) (before after : Turn) : Prop :=
  ∃ since, after.core.Stands spec (notes.extend before.now before.core after.core) since before.now
    (after.agenda rest) (log ++ after.effects.log) after.coprocessor

theorem stands_of_ledger {from_now : Nat} (order : from_now ≤ turn.now)
    (stands : turn.core.Stands spec notes since turn.now agenda log turn.coprocessor)
    (resumes : after.ResumesFrom from_now rest log) (ledger : after.ledger = turn.ledger)
    (clock : after.core.clock = turn.core.clock)
    (halted : turn.core.isHalted = true → after.core.isHalted = true)
    (choice : from_now = since ∨ turn.core.outstanding = []) :
    StandsAfter spec notes rest log turn after := by
  have coprocessor : after.coprocessor = turn.coprocessor := congrArg Ledger.coprocessor ledger
  refine ⟨from_now, order, resumes, ?_⟩
  intro made equipped
  obtain ⟨unit, attached, books⟩ := stands.books made equipped
  refine ⟨unit, coprocessor.trans attached, books.keep ?_ clock halted choice⟩
  unfold Turn.ledger at ledger
  rwa [coprocessor, attached] at ledger

theorem stands_coreEdge (fresh : turn.effects.posts = []) (proper : turn.Proper)
    (stands : turn.core.Stands spec notes since turn.now
      ((turn.now, .coreEdge turn.core.id) :: rest) log turn.coprocessor) :
    StandsAfter spec notes rest log turn turn.coreEdge := by
  rcases resumes_deliver_edge fresh proper.within proper.positive proper.known stands.resumes with
    ⟨halted, resumes⟩ | ⟨awake, onEdge, due, order, near, resumes⟩
  · obtain ⟨edge, same⟩ := coreEdge_of_halted halted
    apply stands_of_ledger stands.order stands resumes
    · rw [same]
      rfl
    · rw [same]
      rfl
    · rw [same]
      exact fun halted => halted
    · exact .inl rfl
  · have clock := (turn.extends_coreEdge (fun _ _ => onEdge) proper.within).clock
    refine ⟨turn.now, Nat.le_refl _, resumes, ?_⟩
    intro made equipped
    obtain ⟨unit, attached, books⟩ := stands.books made equipped
    exact books_coreEdge books attached awake onEdge due near clock

theorem isHalted_response (halted : turn.core.isHalted = true) (address : Nat) (kind : AccessKind)
    (issuedAt : Nat) : (turn.response address kind issuedAt).core.isHalted = true := by
  cases kind with
  | store => exact halted
  | load =>
    obtain ⟨line, -, same⟩ := @response_load_eq turn address issuedAt
    have stopped : turn.core.phase = .halted := by simpa [Core.isHalted] using halted
    rw [same, if_neg (by simp [stopped])]
    exact halted

theorem stands_response (fresh : turn.effects.posts = []) {address issuedAt : Nat}
    (stands : turn.core.Stands spec notes since turn.now
      ((turn.now, .response turn.core.id address .load issuedAt) :: rest) log turn.coprocessor) :
    StandsAfter spec notes rest log turn (turn.response address .load issuedAt) := by
  have ledger := turn.ledger_response address .load issuedAt
  have clock := (turn.extends_response address .load issuedAt).clock
  have halted := fun halted => @isHalted_response turn halted address .load issuedAt
  rcases resumes_deliver_response fresh stands.resumes with resumes | ⟨idle, resumes⟩
  · exact stands_of_ledger stands.order stands resumes ledger clock halted (.inl rfl)
  · exact stands_of_ledger (Nat.le_refl _) stands resumes ledger clock halted (.inr idle)

theorem stands_fault (fresh : turn.effects.posts = []) {fault : Fault}
    (stands : turn.core.Stands spec notes since turn.now
      ((turn.now, .fault turn.core.id fault) :: rest) log turn.coprocessor) :
    StandsAfter spec notes rest log turn (turn.fault fault) := by
  obtain ⟨-, waits, resumes⟩ := resumes_deliver_fault fresh stands.resumes
  apply stands_of_ledger stands.order stands resumes
  · exact turn.ledger_fault fault
  · exact (turn.extends_fault fault).clock
  · intro halted
    simp [Core.isHalted, waits] at halted
  · exact .inl rfl

theorem stands_coprocessorEdge (fresh : turn.effects.posts = [])
    (stands : turn.core.Stands spec notes since turn.now rest log turn.coprocessor) :
    StandsAfter spec notes rest log turn turn.coprocessorEdge := by
  obtain ⟨core, -, advanced⟩ := turn.frame_coprocessorEdge
  refine ⟨since, stands.order, resumes_coprocessorEdge fresh stands.resumes, ?_⟩
  intro made equipped
  obtain ⟨unit, attached, books⟩ := stands.books made equipped
  rw [core, Notes.extend_of_same rfl rfl]
  rw [attached] at advanced
  exact ⟨(unit.edge turn.now).1, advanced, books.advance⟩

/-- Whatever reaches a core, it knows afterwards what it waits for, and its books are kept. -/
theorem stands_deliver (fresh : turn.effects.posts = []) (proper : turn.Proper) {event : Event}
    (own : event.core = turn.core.id)
    (stands : turn.core.Stands spec notes since turn.now
      (if event.resumes turn.core.id then (turn.now, event) :: rest else rest) log turn.coprocessor) :
    StandsAfter spec notes rest log turn (turn.deliver event) := by
  cases event with
  | coreEdge core =>
    obtain rfl : core = turn.core.id := own
    rw [if_pos (by simp [Event.resumes])] at stands
    exact stands_coreEdge fresh proper stands
  | coprocessorEdge core =>
    rw [if_neg (by simp [Event.resumes])] at stands
    exact stands_coprocessorEdge fresh stands
  | response core address kind issuedAt =>
    obtain rfl : core = turn.core.id := own
    cases kind with
    | load =>
      rw [if_pos (by simp [Event.resumes])] at stands
      exact stands_response fresh stands
    | store =>
      rw [if_neg (by simp [Event.resumes])] at stands
      apply stands_of_ledger stands.order stands
      · exact resumes_deliver_store fresh stands.resumes address issuedAt
      · exact turn.ledger_response address .store issuedAt
      · exact (turn.extends_response address .store issuedAt).clock
      · exact fun halted => isHalted_response halted address .store issuedAt
      · exact .inl rfl
  | fault core fault =>
    obtain rfl : core = turn.core.id := own
    rw [if_pos (by simp [Event.resumes])] at stands
    exact stands_fault fresh stands

theorem period_dvd_of_stands (fresh : turn.effects.posts = []) (proper : turn.Proper) {event : Event}
    (own : event.core = turn.core.id)
    (stands : turn.core.Stands spec notes since turn.now
      (if event.resumes turn.core.id then (turn.now, event) :: rest else rest) log turn.coprocessor)
    (awake : turn.core.isHalted = false) (edge : ∃ core, event = .coreEdge core) :
    turn.core.clock.period ∣ turn.now := by
  obtain ⟨core, rfl⟩ := edge
  obtain rfl : core = turn.core.id := own
  rw [if_pos (by simp [Event.resumes])] at stands
  rcases resumes_deliver_edge fresh proper.within proper.positive proper.known stands.resumes with
    ⟨halted, -⟩ | ⟨-, onEdge, -⟩
  · rw [awake] at halted
    cases halted
  · exact onEdge

theorem stands_requestFirstEdge {core : CoreSpec} {workload : Workload}
    (new : turn.core = .ofSpec core workload) (lent : turn.coprocessor = spec.map (.ofSpec core.id))
    (fresh : turn.effects.posts = []) (now : turn.now = 0) (log : List Log.Line) :
    turn.requestFirstEdge.core.Stands spec {} 0 0 (turn.requestFirstEdge.agenda [])
      (log ++ turn.requestFirstEdge.effects.log) turn.requestFirstEdge.coprocessor := by
  have ledger := turn.ledger_requestFirstEdge
  have extended := turn.extends_requestFirstEdge
  have resumes : turn.requestFirstEdge.Resumes [] := by
    apply resumes_requestFirstEdge
    · rw [new]
      trivial
    · rw [new]
      rfl
    · rw [new]
      rfl
    · exact agenda_of_fresh fresh
  have resumed := resumes.from log
  rw [extended.now, now] at resumed
  refine ⟨Nat.le_refl _, resumed, ?_⟩
  intro made equipped
  have coprocessor : turn.requestFirstEdge.coprocessor = some (.ofSpec core.id made) := by
    refine (congrArg Ledger.coprocessor ledger).trans (lent.trans ?_)
    rw [equipped]
    rfl
  have same : turn.requestFirstEdge.core.ledger (some (.ofSpec core.id made)) =
      turn.core.ledger (some (.ofSpec core.id made)) := by
    unfold Turn.ledger at ledger
    rwa [coprocessor, show turn.coprocessor = some (.ofSpec core.id made) by rw [lent, equipped]; rfl]
      at ledger
  have books := Core.Books.ofSpec core workload made
  rw [← new] at books
  have kept := books.keep same extended.clock (fun halted => ?_) (.inl rfl)
  · rw [Notes.extend_of_same (congrArg Ledger.outstanding same) (congrArg Ledger.completions same)] at kept
    exact ⟨_, coprocessor, kept⟩
  · rw [new] at halted
    cases halted

end Turn

end CoreTiming
