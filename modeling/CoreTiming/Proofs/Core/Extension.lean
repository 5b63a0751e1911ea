import CoreTiming.Proofs.Core.Ledger
import CoreTiming.Proofs.Coprocessor.Wakeup
import CoreTiming.Proofs.Memory.Draws

namespace CoreTiming

namespace Turn

/-- The post is still to come, and it is for the core of the turn or for the coprocessor it has. -/
def Owns (turn : Turn) (post : Nat × Event) : Prop :=
  turn.now ≤ post.1 ∧ post.1 ≤ horizon ∧ post.2.core = turn.core.id ∧
    (turn.coprocessor = none → ∀ core, post.2 ≠ .coprocessorEdge core)

/-- The turn has posted only what it may, and the core can draw latencies. -/
structure Proper (turn : Turn) : Prop where
  within : turn.now ≤ horizon
  owned : ∀ unit, turn.coprocessor = some unit → unit.owner = turn.core.id
  known : turn.core.id < turn.latency.sources.length
  positive : turn.latency.Positive
  registered : turn.unregistered = none
  posts : ∀ post ∈ turn.effects.posts, turn.Owns post

structure Extends (before after : Turn) : Prop where
  now : after.now = before.now
  id : after.core.id = before.core.id
  clock : after.core.clock = before.core.clock
  policy : after.core.faultPolicy = before.core.faultPolicy
  sources : after.latency.sources.length = before.latency.sources.length
  equipped : after.coprocessor.isSome = before.coprocessor.isSome
  posts : before.effects.posts <+: after.effects.posts
  log : before.effects.log <+: after.effects.log
  asks : ∀ unit, after.coprocessor = some unit → ∃ former, before.coprocessor = some former ∧
    former.Asks unit after.effects.posts
  proper : before.Proper → after.Proper

theorem Extends.refl (turn : Turn) : turn.Extends turn where
  now := rfl
  id := rfl
  clock := rfl
  policy := rfl
  sources := rfl
  equipped := rfl
  posts := List.prefix_rfl
  log := List.prefix_rfl
  asks := fun unit found => ⟨unit, found, rfl, fun _ asked => .inl asked⟩
  proper := fun proper => proper

theorem Extends.trans {first second third : Turn} (one : first.Extends second)
    (other : second.Extends third) : first.Extends third where
  now := other.now.trans one.now
  id := other.id.trans one.id
  clock := other.clock.trans one.clock
  policy := other.policy.trans one.policy
  sources := other.sources.trans one.sources
  equipped := other.equipped.trans one.equipped
  posts := one.posts.trans other.posts
  log := one.log.trans other.log
  asks := by
    intro unit found
    obtain ⟨middle, between, owner, later⟩ := other.asks unit found
    obtain ⟨former, attached, same, earlier⟩ := one.asks middle between
    refine ⟨former, attached, owner.trans same, ?_⟩
    intro tick asked
    rw [same] at later
    rcases later tick asked with before | posted
    · exact (earlier tick before).imp_right fun member => other.posts.subset member
    · exact .inr posted
  proper := fun proper => other.proper (one.proper proper)

variable (turn : Turn)

theorem extends_setCore {core : Core} (id : core.id = turn.core.id) (clock : core.clock = turn.core.clock)
    (policy : core.faultPolicy = turn.core.faultPolicy) : turn.Extends (turn.setCore core) :=
  { Extends.refl turn with
    id := id
    clock := clock
    policy := policy
    proper := fun proper => {
      within := proper.within
      owned := fun unit found => (proper.owned unit found).trans id.symm
      known := by
        show core.id < _
        rw [id]
        exact proper.known
      positive := proper.positive
      registered := proper.registered
      posts := by
        intro post member
        obtain ⟨future, within, own, attended⟩ := proper.posts post member
        exact ⟨future, within, own.trans id.symm, attended⟩ } }

theorem extends_emit {effects : Effects}
    (own : turn.Proper → ∀ post ∈ effects.posts, turn.Owns post) : turn.Extends (turn.emit effects) :=
  { Extends.refl turn with
    posts := List.prefix_append ..
    log := List.prefix_append ..
    asks := fun unit found => ⟨unit, found, rfl, fun _ asked => .inl asked⟩
    proper := fun proper => {
      within := proper.within
      owned := proper.owned
      known := proper.known
      positive := proper.positive
      registered := proper.registered
      posts := by
        intro post member
        rcases List.mem_append.mp member with before | new
        · exact proper.posts post before
        · exact own proper post new } }

theorem extends_emit_of_silent {effects : Effects} (silent : effects.posts = []) :
    turn.Extends (turn.emit effects) := by
  refine turn.extends_emit ?_
  intro _ post member
  rw [silent] at member
  cases member

theorem extends_note (condition : Bool) (severity : Log.Severity) (message : String)
    (fields : List Log.Field) : turn.Extends (turn.note condition severity message fields) :=
  turn.extends_emit_of_silent (Effects.posts_lineIf ..)

theorem extends_setPhase (phase : Phase) : turn.Extends (turn.setPhase phase) :=
  turn.extends_setCore rfl rfl rfl

theorem extends_retire : turn.Extends turn.retire :=
  turn.extends_setCore rfl rfl rfl

theorem extends_halt : turn.Extends turn.halt := by
  unfold halt
  split
  · exact .refl turn
  · refine .trans ?_ (extends_note ..)
    exact turn.extends_setCore rfl rfl rfl

theorem extends_haltAtHorizon : turn.Extends turn.haltAtHorizon :=
  (turn.extends_note ..).trans (extends_halt _)

theorem extends_requestEdge {tick : Nat} (future : turn.now ≤ tick) (within : tick ≤ horizon) :
    turn.Extends (turn.requestEdge tick) := by
  unfold requestEdge
  split
  · exact .refl turn
  · refine .trans (turn.extends_setCore ?_ ?_ ?_) (extends_emit _ ?_)
    · rfl
    · rfl
    · rfl
    · intro _ post member
      rw [List.mem_singleton.mp member]
      exact ⟨future, within, rfl, by simp⟩

theorem extends_requestNextEdge : turn.Extends turn.requestNextEdge := by
  unfold requestNextEdge
  cases found : turn.core.clock.edgeAfter? turn.now with
  | none => exact turn.extends_haltAtHorizon
  | some tick =>
    obtain ⟨later, within⟩ := Clock.lt_of_edgeAfter? found
    exact turn.extends_requestEdge (Nat.le_of_lt later) within

theorem extends_requestFirstEdge : turn.Extends turn.requestFirstEdge := by
  unfold requestFirstEdge
  cases found : turn.core.clock.edgeAtOrAfter? turn.now with
  | none => exact turn.extends_haltAtHorizon
  | some tick =>
    obtain ⟨future, within⟩ := Clock.le_of_edgeAtOrAfter? found
    exact turn.extends_requestEdge future within

theorem extends_keepPolling : turn.Extends turn.keepPolling := by
  unfold keepPolling
  split
  · exact .refl turn
  · exact turn.extends_requestNextEdge

theorem extends_sleepUntil {resume : Nat} (future : turn.now ≤ resume) (within : resume ≤ horizon) :
    turn.Extends (turn.sleepUntil resume) := by
  unfold sleepUntil
  split
  · rename_i edge found
    obtain ⟨later, bound⟩ := Clock.lt_of_edgeAfter? found
    split
    · exact turn.extends_requestEdge future within
    · exact turn.extends_requestEdge (Nat.le_min.mpr ⟨Nat.le_of_lt later, future⟩)
        (Nat.le_trans (Nat.min_le_left ..) bound)
  · exact turn.extends_requestEdge future within

theorem extends_drainThenHalt : turn.Extends turn.drainThenHalt := by
  unfold drainThenHalt
  split
  · exact turn.extends_halt
  · exact (turn.extends_setPhase _).trans (extends_requestNextEdge _)

theorem extends_raise (fault : Fault) : turn.Extends (turn.raise fault) := by
  refine (turn.extends_setPhase _).trans (extends_emit _ ?_)
  intro proper post member
  rw [List.mem_singleton.mp member]
  exact ⟨Nat.le_refl _, proper.within, rfl, by simp⟩

theorem extends_draw {latency : Nat} {model : LatencyModel}
    (drawn : turn.latency.draw? turn.core.id = some (latency, model)) :
    turn.Extends { turn with latency := model } := by
  obtain ⟨-, sources, positive⟩ := LatencyModel.draw?_eq_some drawn
  exact { Extends.refl turn with
    sources := sources
    asks := fun unit found => ⟨unit, found, rfl, fun _ asked => .inl asked⟩
    proper := fun proper => { proper with
      known := sources ▸ proper.known
      positive := (positive proper.positive).2 } }

theorem extends_unregistered (missing : turn.latency.draw? turn.core.id = none) (core : Option Nat) :
    turn.Extends { turn with unregistered := core } := by
  have absent := LatencyModel.draw?_eq_none missing
  exact { Extends.refl turn with
    asks := fun unit found => ⟨unit, found, rfl, fun _ asked => .inl asked⟩
    proper := fun proper => absurd proper.known (Nat.not_lt.mpr absent) }

theorem extends_request (address : Nat) (kind : AccessKind) :
    turn.Extends (turn.request address kind).1 := by
  unfold request
  simp only
  split
  · exact turn.extends_raise _
  · split
    · rename_i missing
      exact turn.extends_unregistered missing _
    · rename_i latency model drawn
      refine (turn.extends_draw drawn).trans (.trans (extends_setCore _ ?_ ?_ ?_) (extends_emit _ ?_))
      · rfl
      · rfl
      · rfl
      · intro proper post member
        rw [Effects.posts_append, Effects.posts_record, List.nil_append] at member
        rw [List.mem_singleton.mp member]
        refine ⟨?_, Nat.min_le_right .., rfl, by simp⟩
        exact Nat.le_min.mpr ⟨Nat.le_add_right .., proper.within⟩

theorem extends_load (address : Nat) : turn.Extends (turn.load address) := by
  unfold load
  simp only
  split
  · exact (turn.extends_request ..).trans ((extends_setPhase ..).trans (extends_keepPolling _))
  · exact turn.extends_request ..

theorem extends_store (address : Nat) : turn.Extends (turn.store address) := by
  unfold store
  simp only
  split
  · refine (turn.extends_request address .store).trans (.trans ?_ (extends_requestNextEdge _))
    exact extends_setCore _ rfl rfl rfl
  · exact turn.extends_request ..

theorem extends_lend {unit : Coprocessor} (attached : turn.coprocessor = some unit) (work : Offload) :
    turn.Extends ({ turn with coprocessor := some (unit.submit turn.now work).2.1 }.emit
      (unit.submit turn.now work).2.2) := by
  obtain ⟨asks, edges⟩ := unit.asks_submit turn.now work
  exact {
    now := rfl
    id := rfl
    clock := rfl
    policy := rfl
    sources := rfl
    equipped := by rw [attached]; rfl
    posts := List.prefix_append ..
    log := List.prefix_append ..
    asks := by
      intro lent found
      cases found
      refine ⟨unit, attached, asks.1, fun tick asked => ?_⟩
      exact (asks.2 tick asked).imp_right fun member => List.mem_append_right _ member
    proper := fun proper => {
      within := proper.within
      owned := by
        intro lent found
        cases found
        exact asks.1.trans (proper.owned unit attached)
      known := proper.known
      positive := proper.positive
      registered := proper.registered
      posts := by
        intro post member
        rcases List.mem_append.mp member with before | new
        · obtain ⟨future, within, own, -⟩ := proper.posts post before
          exact ⟨future, within, own, by simp [emit]⟩
        · obtain ⟨future, within, same⟩ := edges post new
          refine ⟨future, within, ?_, by simp [emit]⟩
          rw [same]
          exact proper.owned unit attached } }

theorem extends_offload (work : Offload) : turn.Extends (turn.offload work) := by
  unfold offload
  cases attached : turn.coprocessor with
  | none => exact turn.extends_raise _
  | some unit =>
    refine (turn.extends_lend attached work).trans ?_
    simp only
    cases (unit.submit turn.now work).1 with
    | ok handle =>
      refine .trans (extends_setCore _ ?_ ?_ ?_) (extends_requestNextEdge _) <;> rfl
    | error refusal =>
      refine .trans (extends_setCore _ ?_ ?_ ?_) (.trans (extends_note ..) (extends_requestNextEdge _)) <;> rfl

theorem extends_compute {cycle : Nat} (edge : cycle * turn.core.clock.period = turn.now)
    (within : turn.now ≤ horizon) (cycles : Nat) : turn.Extends (turn.compute cycle cycles) := by
  have future := (turn.core.clock.burst_end edge within (max cycles 1)).1
  exact (turn.extends_setPhase _).trans
    (extends_sleepUntil _ future (Clock.tickOfCycle_le_horizon ..))

theorem extends_wait : turn.Extends turn.wait := by
  unfold wait
  simp only
  refine turn.extends_retire.trans (.trans ?_ (extends_requestNextEdge _))
  split
  · exact .refl _
  · exact extends_setPhase ..

theorem extends_execute {cycle : Nat} (edge : cycle * turn.core.clock.period = turn.now)
    (within : turn.now ≤ horizon) (operation : Operation) :
    turn.Extends (turn.execute cycle operation) := by
  have noted := turn.extends_note turn.core.logsOperations .trace "issue"
    [.ofNat "pc" turn.core.pc, ⟨"op", operation.text, false⟩]
  unfold execute
  refine noted.trans ?_
  cases operation with
  | compute cycles =>
    refine extends_compute _ ?_ ?_ cycles
    · exact edge
    · exact within
  | load address => exact extends_load ..
  | store address => exact extends_store ..
  | offload work => exact extends_offload ..
  | wait => exact extends_wait _
  | halt => exact (extends_retire _).trans (extends_drainThenHalt _)

theorem extends_issue {cycle : Nat} (edge : cycle * turn.core.clock.period = turn.now)
    (within : turn.now ≤ horizon) : turn.Extends (turn.issue cycle) := by
  unfold issue
  split
  · refine .trans (extends_setCore turn ?_ ?_ ?_) (extends_execute _ ?_ ?_ _)
    iterate 3 rfl
    · exact edge
    · exact within
  · split
    · refine .trans (extends_setCore turn ?_ ?_ ?_) (extends_execute _ ?_ ?_ _)
      iterate 3 rfl
      · exact edge
      · exact within
    · exact turn.extends_drainThenHalt

theorem extends_proceed (edge : turn.core.clock.period ∣ turn.now) (within : turn.now ≤ horizon) :
    turn.Extends turn.proceed := by
  have cycle : turn.core.clock.cycleAt turn.now * turn.core.clock.period = turn.now :=
    Nat.div_mul_cancel edge
  unfold proceed
  simp only
  split
  · exact .refl turn
  · exact .refl turn
  · exact turn.extends_keepPolling
  · split
    · rename_i early
      exact turn.extends_sleepUntil (Nat.le_of_lt early) (Clock.tickOfCycle_le_horizon ..)
    · exact turn.extends_retire.trans ((extends_setPhase ..).trans (extends_issue _ cycle within))
  · split
    · exact turn.extends_keepPolling
    · split
      · exact turn.extends_halt
      · exact (turn.extends_setPhase _).trans (extends_issue _ cycle within)
  · exact turn.extends_issue cycle within

theorem extends_poll (handle : Nat) : turn.Extends (turn.poll handle) := by
  unfold poll
  cases found : turn.coprocessor.bind (·.poll? handle turn.now) with
  | none => exact .refl turn
  | some outcome =>
    obtain ⟨result, unit, effects⟩ := outcome
    obtain ⟨former, attached, polled⟩ := Option.bind_eq_some_iff.mp found
    obtain ⟨owner, edge, posts⟩ := Coprocessor.asks_poll? polled
    have handed : turn.Extends { turn with coprocessor := some unit } := {
      Extends.refl turn with
      equipped := by rw [attached]; rfl
      asks := by
        intro other same
        cases same
        exact ⟨former, attached, owner, fun tick asked => .inl (edge ▸ asked)⟩
      proper := fun proper => { proper with
        owned := by
          intro other same
          cases same
          exact owner.trans (proper.owned former attached)
        posts := by
          intro post member
          obtain ⟨future, within, own, -⟩ := proper.posts post member
          exact ⟨future, within, own, by simp⟩ } }
    simp only
    refine handed.trans ((extends_emit_of_silent _ posts).trans (.trans (extends_setCore _ ?_ ?_ ?_)
      ((extends_emit_of_silent _ (Effects.posts_record ..)).trans (extends_note ..))))
    all_goals rfl

theorem extends_pollAll : turn.Extends turn.pollAll :=
  turn.pollAll_induction Extends.refl Extends.trans extends_poll

theorem extends_coreEdge (edge : turn.core.nextEdge = some turn.now → turn.core.isHalted = false →
    turn.core.clock.period ∣ turn.now) (within : turn.now ≤ horizon) : turn.Extends turn.coreEdge := by
  have cleared : turn.Extends (turn.setCore { turn.core with nextEdge := none }) :=
    turn.extends_setCore rfl rfl rfl
  unfold coreEdge
  split
  · exact .refl turn
  · rename_i due
    simp only
    split
    · exact cleared
    · rename_i awake
      have polled := cleared.trans (extends_pollAll _)
      refine polled.trans (extends_proceed _ ?_ ?_)
      · rw [polled.clock, polled.now]
        exact edge (by simpa using due) ((Bool.not_eq_true _).mp awake)
      · rw [polled.now]
        exact within

theorem extends_response (address : Nat) (kind : AccessKind) (issuedAt : Nat) :
    turn.Extends (turn.response address kind issuedAt) := by
  have noted := turn.extends_note turn.core.logsOperations .trace "memory response" [
    .ofNat "address" address, ⟨"kind", kind.name, false⟩,
    .ofNat "latency_ticks" (turn.now - issuedAt)]
  unfold response
  refine noted.trans ?_
  cases kind with
  | store => exact extends_setCore _ rfl rfl rfl
  | load =>
    simp only
    split
    · exact (extends_retire _).trans ((extends_setPhase ..).trans (extends_requestFirstEdge _))
    · exact .refl _

theorem extends_fault (fault : Fault) : turn.Extends (turn.fault fault) := by
  have counted : turn.Extends
      (turn.count fun counters => { counters with faults := counters.faults + 1 }) :=
    turn.extends_setCore rfl rfl rfl
  unfold Turn.fault
  simp only
  split
  · exact counted.trans ((extends_note ..).trans (extends_halt _))
  · exact counted.trans ((extends_note ..).trans ((extends_setPhase ..).trans (extends_requestNextEdge _)))

theorem frame_coprocessorEdge : turn.coprocessorEdge.core = turn.core ∧
    turn.coprocessorEdge.latency = turn.latency ∧
      turn.coprocessorEdge.coprocessor = turn.coprocessor.map fun unit => (unit.edge turn.now).1 := by
  unfold coprocessorEdge
  cases attached : turn.coprocessor with
  | none => exact ⟨rfl, rfl, attached⟩
  | some unit => exact ⟨rfl, rfl, rfl⟩

theorem proper_coprocessorEdge (proper : turn.Proper) : turn.coprocessorEdge.Proper := by
  unfold coprocessorEdge
  cases attached : turn.coprocessor with
  | none => exact proper
  | some unit =>
    exact {
      within := proper.within
      owned := by
        intro moved same
        cases same
        exact (unit.owner_edge turn.now).trans (proper.owned unit attached)
      known := proper.known
      positive := proper.positive
      registered := proper.registered
      posts := by
        intro post member
        rcases List.mem_append.mp member with before | new
        · obtain ⟨future, within, own, -⟩ := proper.posts post before
          exact ⟨future, within, own, by simp [emit]⟩
        · obtain ⟨future, within, same⟩ := (unit.asks_edge turn.now).2 post new
          refine ⟨future, within, ?_, by simp [emit]⟩
          rw [same]
          exact proper.owned unit attached }

theorem extends_deliver {event : Event} (other : ∀ core, event ≠ .coprocessorEdge core)
    (edge : turn.core.nextEdge = some turn.now → turn.core.isHalted = false →
      (∃ core, event = .coreEdge core) → turn.core.clock.period ∣ turn.now) (within : turn.now ≤ horizon) :
    turn.Extends (turn.deliver event) := by
  cases event with
  | coreEdge core => exact turn.extends_coreEdge (fun due awake => edge due awake ⟨core, rfl⟩) within
  | coprocessorEdge core => exact absurd rfl (other core)
  | response core address kind issuedAt => exact turn.extends_response address kind issuedAt
  | fault core fault => exact turn.extends_fault fault

end Turn

end CoreTiming
