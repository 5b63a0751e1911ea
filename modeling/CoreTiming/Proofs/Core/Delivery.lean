import CoreTiming.Proofs.Core.Resumption

namespace CoreTiming

namespace Turn

/-- The core waits on once the polls for its offloads are over, since the tick of its last poll. -/
def ResumesFrom (since : Nat) (rest : List (Nat × Event)) (log : List Log.Line) (turn : Turn) : Prop :=
  turn.core.Resumes since (turn.agenda rest) (log ++ turn.effects.log)

end Turn

namespace Core

variable {core : Core} {since : Nat} {agenda : List (Nat × Event)} {log : List Log.Line}

theorem Excused.mono {longer : List Log.Line} (excused : core.Excused log) (subset : log ⊆ longer) :
    core.Excused longer := by
  rcases excused with idle | faulted | ⟨line, member, same⟩
  · exact .inl idle
  · exact .inr (.inl faulted)
  · exact .inr (.inr ⟨line, subset member, same⟩)

theorem Resumes.mono {longer : List Log.Line} (resumes : core.Resumes since agenda log)
    (subset : log ⊆ longer) (stores : Nat) :
    ({ core with storesInFlight := stores } : Core).Resumes since agenda longer := by
  cases resumes with
  | halted stopped ended calm excused => exact .halted stopped ended calm (excused.mono subset)
  | edge tick active asked pending future within onEdge prompt =>
    exact .edge tick active asked pending future within onEdge prompt
  | memory tick address issuedAt waits asleep idle pending =>
    exact .memory tick address issuedAt waits asleep idle pending
  | polling tick address issuedAt waits asked pending within near =>
    exact .polling tick address issuedAt waits asked pending within near
  | fault fault waits asleep pending => exact .fault fault waits asleep pending

/-- An edge has come that the core has asked for. The core is active, or it polls while its response is
    still to come. -/
structure Due (since now : Nat) (rest : List (Nat × Event)) (core : Core) : Prop where
  asked : core.nextEdge = some now
  onEdge : core.clock.period ∣ now
  future : since ≤ now
  prompt : core.outstanding ≠ [] → now ≤ core.clock.nextEdgeAfter since
  kind : core.Active ∧ rest = [] ∨ core.phase = .waitMemory ∧ ∃ tick address issuedAt,
    rest = [(tick, .response core.id address .load issuedAt)] ∧ now < tick

variable {now : Nat} {rest : List (Nat × Event)}

theorem Resumes.of_isHalted (resumes : core.Resumes since agenda log) (halted : core.isHalted = true) :
    core.phase = .halted ∧ core.haltedAt = some since ∧
      (∀ item ∈ agenda, ∀ fault, item.2 ≠ .fault core.id fault) ∧ core.Excused log := by
  have stopped : core.phase = .halted := by simpa [isHalted] using halted
  cases resumes with
  | halted _ ended calm excused => exact ⟨stopped, ended, calm, excused⟩
  | edge _ active =>
    unfold Active at active
    rw [stopped] at active
    cases active
  | memory _ _ _ waits | polling _ _ _ waits | fault _ waits => cases stopped.symm.trans waits

theorem Resumes.at_edge (resumes : core.Resumes since ((now, .coreEdge core.id) :: rest) log)
    (awake : core.isHalted = false) : core.Due since now rest := by
  cases resumes with
  | halted stopped =>
    unfold isHalted at awake
    simp [stopped] at awake
  | edge tick active asked pending future bound onEdge prompt =>
    obtain ⟨same, rfl⟩ := List.cons.inj pending
    obtain rfl : now = tick := congrArg Prod.fst same
    exact ⟨asked, onEdge, future, prompt, .inl ⟨active, rfl⟩⟩
  | memory tick address issuedAt waits asleep idle pending => simp at pending
  | polling tick address issuedAt waits asked pending bound near =>
    have onEdge := @Clock.period_dvd_nextEdgeAfter core.clock since
    unfold Queue.insertLate at pending
    split at pending
    · -- the response comes later than this edge, which therefore is one more poll
      rename_i first
      obtain ⟨same, rfl⟩ := List.cons.inj pending
      have time : now = core.clock.nextEdgeAfter since := congrArg Prod.fst same
      rw [← time] at asked onEdge first
      refine ⟨asked, onEdge, ?_, fun _ => Nat.le_of_eq time,
        .inr ⟨waits, tick, address, issuedAt, rfl, first⟩⟩
      rw [time]
      exact Nat.le_of_lt (Clock.lt_nextEdgeAfter since)
    · simp at pending
  | fault fault waits asleep pending => simp at pending

theorem Resumes.at_response {address issuedAt : Nat}
    (resumes : core.Resumes since ((now, .response core.id address .load issuedAt) :: rest) log)
    (awake : core.isHalted = false) : core.phase = .waitMemory ∧
      (core.nextEdge = none ∧ core.outstanding = [] ∧ rest = [] ∨
        core.nextEdge = some (core.clock.firstEdge now) ∧
          core.clock.firstEdge now = core.clock.nextEdgeAfter since ∧ core.clock.firstEdge now ≤ horizon ∧
            rest = [(core.clock.firstEdge now, .coreEdge core.id)]) := by
  cases resumes with
  | halted stopped =>
    unfold isHalted at awake
    simp [stopped] at awake
  | edge tick active asked pending => simp at pending
  | memory tick place issued waits asleep idle pending =>
    exact ⟨waits, .inl ⟨asleep, idle, (List.cons.inj pending).2⟩⟩
  | polling tick place issued waits asked pending bound near =>
    unfold Queue.insertLate at pending
    split at pending
    · simp at pending
    · rename_i behind
      obtain ⟨item, rfl⟩ := List.cons.inj pending
      obtain rfl : now = tick := congrArg Prod.fst item
      have first : core.clock.firstEdge now = core.clock.nextEdgeAfter since :=
        Nat.le_antisymm
          (Clock.firstEdge_le_of_dvd (Clock.period_dvd_nextEdgeAfter since) (Nat.not_lt.mp behind)) near
      rw [first]
      exact ⟨waits, .inr ⟨asked, rfl, bound, rfl⟩⟩
  | fault fault waits asleep pending => simp at pending

theorem Resumes.at_fault {fault : Fault}
    (resumes : core.Resumes since ((now, .fault core.id fault) :: rest) log) :
    now = since ∧ core.phase = .waitFault ∧ core.nextEdge = none ∧ rest = [] := by
  cases resumes with
  | halted stopped ended calm => exact absurd rfl (calm _ (List.mem_cons_self ..) fault)
  | edge tick active asked pending => simp at pending
  | memory tick address issuedAt waits asleep idle pending => simp at pending
  | polling tick address issuedAt waits asked pending =>
    unfold Queue.insertLate at pending
    split at pending <;> simp at pending
  | fault raised waits asleep pending =>
    obtain ⟨item, rfl⟩ := List.cons.inj pending
    exact ⟨congrArg Prod.fst item, waits, asleep, rfl⟩

end Core

namespace Turn

variable {turn : Turn} {rest : List (Nat × Event)} {since : Nat} {log : List Log.Line}

theorem Resumes.from (resumes : turn.Resumes rest) (log : List Log.Line) :
    turn.ResumesFrom turn.now rest log :=
  Core.Resumes.mono resumes (List.subset_append_right _ _) turn.core.storesInFlight

theorem resumesFrom_coreEdge (edge : turn.AtEdge rest) (due : turn.core.nextEdge = some turn.now)
    (log : List Log.Line) : turn.coreEdge.ResumesFrom turn.now rest log := by
  have resumes := (resumes_coreEdge edge due).from log
  rwa [(turn.extends_coreEdge (fun _ _ => edge.onEdge) edge.within).now] at resumes

theorem resumes_deliver_edge (fresh : turn.effects.posts = []) (within : turn.now ≤ horizon)
    (positive : turn.latency.Positive) (known : turn.core.id < turn.latency.sources.length)
    (resumes : turn.core.Resumes since ((turn.now, .coreEdge turn.core.id) :: rest) log) :
    turn.core.isHalted = true ∧ turn.coreEdge.ResumesFrom since rest log ∨
      turn.core.isHalted = false ∧ turn.core.clock.period ∣ turn.now ∧
        turn.core.nextEdge = some turn.now ∧ since ≤ turn.now ∧
        (turn.core.outstanding ≠ [] → turn.now ≤ turn.core.clock.nextEdgeAfter since) ∧
        turn.coreEdge.ResumesFrom turn.now rest log := by
  cases halted : turn.core.isHalted with
  | true =>
    obtain ⟨stopped, ended, calm, excused⟩ := resumes.of_isHalted halted
    obtain ⟨edge, same⟩ := coreEdge_of_halted halted
    refine .inl ⟨rfl, ?_⟩
    rw [same]
    refine .halted stopped ended ?_ (excused.mono (List.subset_append_left _ _))
    rw [agenda_setCore, agenda_of_fresh fresh]
    · exact fun item member => calm item (List.mem_cons_of_mem _ member)
    · rfl
  | false =>
    obtain ⟨asked, onEdge, future, prompt, kind⟩ := resumes.at_edge halted
    have edge : turn.AtEdge rest := ⟨onEdge, within, positive, known, by rwa [agenda_of_fresh fresh]⟩
    exact .inr ⟨rfl, onEdge, asked, future, prompt, resumesFrom_coreEdge edge asked log⟩

theorem response_load_eq (address issuedAt : Nat) :
    ∃ line : Effects, line.posts = [] ∧ turn.response address .load issuedAt =
      if turn.core.phase = .waitMemory then
        (((turn.emit line).retire).setPhase .running).requestFirstEdge
      else turn.emit line :=
  ⟨.lineIf turn.core.logsOperations {
      severity := .trace
      message := "memory response"
      fields := turn.field [.ofNat "address" address, ⟨"kind", AccessKind.load.name, false⟩,
        .ofNat "latency_ticks" (turn.now - issuedAt)] },
    Effects.posts_lineIf .., rfl⟩

theorem requestFirstEdge_of_asked (asked : turn.core.nextEdge = some (turn.core.clock.firstEdge turn.now))
    (within : turn.core.clock.firstEdge turn.now ≤ horizon) : turn.requestFirstEdge = turn := by
  unfold requestFirstEdge
  rw [Clock.edgeAtOrAfter?_of_le within]
  exact if_pos (by simp [asked])

theorem resumes_deliver_response (fresh : turn.effects.posts = []) {address issuedAt : Nat}
    (resumes : turn.core.Resumes since
      ((turn.now, .response turn.core.id address .load issuedAt) :: rest) log) :
    (turn.response address .load issuedAt).ResumesFrom since rest log ∨
      turn.core.outstanding = [] ∧
        (turn.response address .load issuedAt).ResumesFrom turn.now rest log := by
  obtain ⟨line, silent, same⟩ := @response_load_eq turn address issuedAt
  have quiet : (turn.emit line).agenda rest = rest := by
    rw [agenda_emit, silent]
    exact agenda_of_fresh fresh
  rw [same]
  cases halted : turn.core.isHalted with
  | true =>
    obtain ⟨stopped, ended, calm, excused⟩ := resumes.of_isHalted halted
    rw [if_neg (by simp [stopped])]
    refine .inl (.halted stopped ended ?_ (excused.mono (List.subset_append_left _ _)))
    rw [quiet]
    exact fun item member => calm item (List.mem_cons_of_mem _ member)
  | false =>
    obtain ⟨waits, ⟨asleep, idle, rfl⟩ | ⟨asked, first, bound, rfl⟩⟩ := resumes.at_response halted
    · rw [if_pos waits]
      have woken : ((((turn.emit line).retire).setPhase .running).requestFirstEdge).Resumes [] :=
        resumes_requestFirstEdge trivial asleep idle quiet
      have now : ((((turn.emit line).retire).setPhase .running).requestFirstEdge).now = turn.now :=
        (extends_requestFirstEdge _).now
      refine .inr ⟨idle, ?_⟩
      rw [← now]
      exact woken.from log
    · have kept := @requestFirstEdge_of_asked (((turn.emit line).retire).setPhase .running) asked bound
      rw [if_pos waits, kept]
      have onEdge := @Clock.period_dvd_nextEdgeAfter turn.core.clock since
      have future := Nat.le_of_lt (@Clock.lt_nextEdgeAfter turn.core.clock since)
      rw [← first] at onEdge future
      exact .inl (.edge _ trivial asked quiet future bound onEdge fun _ => Nat.le_of_eq first)

theorem resumes_deliver_fault (fresh : turn.effects.posts = []) {fault : Fault}
    (resumes : turn.core.Resumes since ((turn.now, .fault turn.core.id fault) :: rest) log) :
    since = turn.now ∧ turn.core.phase = .waitFault ∧ (turn.fault fault).ResumesFrom since rest log := by
  obtain ⟨rfl, waits, asleep, rfl⟩ := resumes.at_fault
  refine ⟨rfl, waits, ?_⟩
  have resumed : (turn.fault fault).Resumes [] := by
    unfold Turn.fault
    simp only
    cases policy : turn.core.faultPolicy with
    | halt =>
      refine resumes_halt ?_ ?_ ?_
      · show turn.core.isHalted = false
        simp [Core.isHalted, waits]
      · rw [agenda_note]
        intro item member
        rw [show (turn.count _).agenda [] = [] from agenda_of_fresh fresh] at member
        cases member
      · exact .inr (.inl ⟨policy, Nat.succ_pos _⟩)
    | «continue» =>
      refine resumes_requestNextEdge trivial asleep ?_
      refine (agenda_setCore ?_).trans ((agenda_note ..).trans (agenda_of_fresh fresh))
      rfl
  have from_now := resumed.from log
  rwa [(turn.extends_fault fault).now] at from_now

theorem agenda_response_store (address issuedAt : Nat) :
    (turn.response address .store issuedAt).agenda rest = turn.agenda rest :=
  (agenda_setCore rfl).trans (agenda_note ..)

theorem agenda_coprocessorEdge : turn.coprocessorEdge.agenda rest = turn.agenda rest := by
  unfold coprocessorEdge
  cases turn.coprocessor with
  | none => rfl
  | some unit =>
    refine agenda_emit_of_silent ?_
    intro post member
    rw [((unit.asks_edge turn.now).2 post member).2.2]
    rfl

theorem resumes_deliver_store (fresh : turn.effects.posts = [])
    (resumes : turn.core.Resumes since rest log) (address issuedAt : Nat) :
    (turn.response address .store issuedAt).ResumesFrom since rest log := by
  unfold ResumesFrom
  rw [agenda_response_store, agenda_of_fresh fresh]
  exact resumes.mono (List.subset_append_left _ _) (turn.core.storesInFlight - 1)

theorem resumes_coprocessorEdge (fresh : turn.effects.posts = [])
    (resumes : turn.core.Resumes since rest log) : turn.coprocessorEdge.ResumesFrom since rest log := by
  unfold ResumesFrom
  rw [agenda_coprocessorEdge, agenda_of_fresh fresh, turn.frame_coprocessorEdge.1]
  exact resumes.mono (List.subset_append_left _ _) turn.core.storesInFlight

end Turn

end CoreTiming
