import CoreTiming.Proofs.Core.Standing
import CoreTiming.Simulator

namespace CoreTiming

/-- The core stands where it should, and its coprocessor will be woken. -/
structure Station.Sound (spec : Option CoprocessorSpec) (queue : Queue) (log : List Log.Line)
    (index : Nat) (notes : Notes) (station : Station) : Prop where
  numbered : station.core.id = index
  equipped : station.coprocessor.isSome = spec.isSome
  owned : ∀ unit, station.coprocessor = some unit → unit.owner = index
  awaits : ∀ unit, station.coprocessor = some unit → queue.Awaits unit
  stands : ∃ since, station.core.Stands spec notes since queue.now
    (queue.agenda (Event.resumes index)) log station.coprocessor

theorem Event.core_of_resumes {core : Nat} {event : Event} (resumes : event.resumes core = true) :
    event.core = core ∧ event.priority = 2 * core := by
  cases event with
  | coreEdge other =>
    have same : other = core := by simpa [Event.resumes] using resumes
    exact ⟨same, congrArg (2 * ·) same⟩
  | coprocessorEdge other => simp [Event.resumes] at resumes
  | response other address kind issuedAt =>
    cases kind with
    | load =>
      have same : other = core := by simpa [Event.resumes] using resumes
      exact ⟨same, congrArg (2 * ·) same⟩
    | store => simp [Event.resumes] at resumes
  | fault other fault =>
    have same : other = core := by simpa [Event.resumes] using resumes
    exact ⟨same, congrArg (2 * ·) same⟩

theorem Event.not_resumes_of_ne {core : Nat} {event : Event} (other : event.core ≠ core) :
    event.resumes core = false := by
  cases resumes : event.resumes core with
  | false => rfl
  | true => exact absurd (Event.core_of_resumes resumes).1 other

def Station.turn (station : Station) (now : Nat) (memory : MemoryMap) (latency : LatencyModel) : Turn where
  now := now
  memory := memory
  latency := latency
  core := station.core
  coprocessor := station.coprocessor

namespace Station.Sound

variable {spec : Option CoprocessorSpec} {queue after : Queue} {log : List Log.Line} {index : Nat}
  {notes : Notes} {station : Station} {next : Pending}

theorem stands_of_pop? (sound : station.Sound spec queue log index notes) (ordered : queue.Ordered)
    (popped : queue.pop? = some (next, after)) (within : next.tick ≤ horizon) :
    ∃ since, station.core.Stands spec notes since next.tick
      (queue.agenda (Event.resumes index)) log station.coprocessor := by
  obtain ⟨since, stands⟩ := sound.stands
  obtain ⟨-, now, -⟩ := Queue.pop?_eq_some popped
  have order : queue.now ≤ next.tick := now ▸ (ordered.pop? popped).2
  refine ⟨since, stands.wait order within ?_⟩
  intro unit attached edge asked
  exact (sound.awaits unit attached).tick_le ordered popped asked

theorem pass (sound : station.Sound spec queue log index notes) (ordered : queue.Ordered)
    (popped : queue.pop? = some (next, after)) (within : next.tick ≤ horizon)
    (other : next.event.core ≠ index) : station.Sound spec after log index notes where
  numbered := sound.numbered
  equipped := sound.equipped
  owned := sound.owned
  awaits := by
    intro unit attached
    refine (sound.awaits unit attached).pop? popped ?_
    intro own
    rw [own] at other
    exact other (sound.owned unit attached)
  stands := by
    obtain ⟨since, stands⟩ := sound.stands_of_pop? ordered popped within
    rw [Queue.agenda_of_pop? _ popped, Event.not_resumes_of_ne other] at stands
    rw [(Queue.pop?_eq_some popped).2.1]
    exact ⟨since, stands⟩

theorem scheduleAll (sound : station.Sound spec queue log index notes) (ordered : queue.Ordered)
    {posts : List (Nat × Event)} (foreign : ∀ post ∈ posts, queue.now ≤ post.1 ∧ post.2.core ≠ index)
    {longer : List Log.Line} (subset : log ⊆ longer) :
    station.Sound spec (queue.scheduleAll posts) longer index notes where
  numbered := sound.numbered
  equipped := sound.equipped
  owned := sound.owned
  awaits := fun unit attached => (sound.awaits unit attached).scheduleAll posts
  stands := by
    obtain ⟨since, stands⟩ := sound.stands
    have unchanged : (queue.scheduleAll posts).agenda (Event.resumes index) =
        queue.agenda (Event.resumes index) := by
      rw [Queue.agenda_scheduleAll ordered (fun event resumes => (Event.core_of_resumes resumes).2)
        fun post member => (foreign post member).1, List.filter_eq_nil_iff.mpr, List.foldl_nil]
      intro post member
      rw [Event.not_resumes_of_ne (foreign post member).2]
      exact Bool.false_ne_true
    rw [unchanged, Queue.now_scheduleAll]
    exact ⟨since, stands.log_mono subset⟩

theorem of_turn {done : Turn} (ordered : queue.Ordered) (proper : done.Proper)
    (id : done.core.id = index) (now : done.now = queue.now)
    (equipped : done.coprocessor.isSome = spec.isSome)
    (awaits : ∀ unit, done.coprocessor = some unit →
      (queue.scheduleAll done.effects.posts).Awaits unit)
    (stands : ∃ since, done.core.Stands spec notes since queue.now
      (done.agenda (queue.agenda (Event.resumes index))) log done.coprocessor) :
    Station.Sound spec (queue.scheduleAll done.effects.posts) log index notes
      ⟨done.core, done.coprocessor⟩ where
  numbered := id
  equipped := equipped
  owned := fun unit attached => (proper.owned unit attached).trans id
  awaits := awaits
  stands := by
    have agenda : (queue.scheduleAll done.effects.posts).agenda (Event.resumes index) =
        done.agenda (queue.agenda (Event.resumes index)) := by
      unfold Turn.agenda
      rw [id]
      refine Queue.agenda_scheduleAll ordered
        (fun event resumes => (Event.core_of_resumes resumes).2) ?_
      intro post member
      rw [← now]
      exact (proper.posts post member).1
    rw [agenda, Queue.now_scheduleAll]
    exact stands

section take

variable (sound : station.Sound spec queue log index notes) (ordered : queue.Ordered)
  (popped : queue.pop? = some (next, after)) (within : next.tick ≤ horizon)
  (own : next.event.core = index) {memory : MemoryMap} {latency : LatencyModel}
  (positive : latency.Positive) (known : index < latency.sources.length)

include sound within positive known in
theorem proper_turn : (station.turn next.tick memory latency).Proper where
  within := within
  owned := by
    intro unit attached
    exact (sound.owned unit attached).trans sound.numbered.symm
  known := by
    show station.core.id < _
    rw [sound.numbered]
    exact known
  positive := positive
  registered := rfl
  posts := by
    intro post member
    cases member

include sound ordered popped within in
theorem stands_turn : ∃ since, station.core.Stands spec notes since next.tick
    (if next.event.resumes station.core.id then (next.tick, next.event) ::
      after.agenda (Event.resumes index) else after.agenda (Event.resumes index)) log
        station.coprocessor := by
  obtain ⟨since, stands⟩ := sound.stands_of_pop? ordered popped within
  rw [Queue.agenda_of_pop? _ popped] at stands
  rw [sound.numbered]
  exact ⟨since, stands⟩

include sound ordered popped within own positive known in
theorem extends_or_edge : (∃ core, next.event = .coprocessorEdge core) ∨
    (∀ core, next.event ≠ .coprocessorEdge core) ∧ (station.turn next.tick memory latency).Extends
      ((station.turn next.tick memory latency).deliver next.event) := by
  by_cases edge : ∃ core, next.event = .coprocessorEdge core
  · exact .inl edge
  · have proper : (station.turn next.tick memory latency).Proper :=
      sound.proper_turn within positive known
    have addressed : next.event.core = (station.turn next.tick memory latency).core.id :=
      own.trans sound.numbered.symm
    obtain ⟨since, stands⟩ := sound.stands_turn ordered popped within
    have others := fun core same => edge ⟨core, same⟩
    refine .inr ⟨others, ?_⟩
    apply Turn.extends_deliver
    · exact others
    · intro due awake isEdge
      exact Turn.period_dvd_of_stands rfl proper addressed stands awake isEdge
    · exact within

include sound ordered popped within own positive known in
theorem frame_deliver : ((station.turn next.tick memory latency).deliver next.event).Proper ∧
    ((station.turn next.tick memory latency).deliver next.event).core.id = index ∧
    ((station.turn next.tick memory latency).deliver next.event).latency.sources.length =
      latency.sources.length ∧
    ((station.turn next.tick memory latency).deliver next.event).coprocessor.isSome =
      station.coprocessor.isSome ∧
    ((station.turn next.tick memory latency).deliver next.event).now = next.tick := by
  have proper : (station.turn next.tick memory latency).Proper :=
    sound.proper_turn within positive known
  rcases sound.extends_or_edge ordered popped within own positive known with
    ⟨core, same⟩ | ⟨others, extended⟩
  · have framed := (station.turn next.tick memory latency).frame_coprocessorEdge
    rw [same]
    refine ⟨Turn.proper_coprocessorEdge _ proper, ?_, ?_, ?_, ?_⟩
    · exact (congrArg Core.id framed.1).trans sound.numbered
    · exact congrArg (·.sources.length) framed.2.1
    · exact (congrArg Option.isSome framed.2.2).trans Option.isSome_map
    · unfold Turn.deliver Turn.coprocessorEdge
      cases (station.turn next.tick memory latency).coprocessor <;> rfl
  · exact ⟨extended.proper proper, extended.id.trans sound.numbered, extended.sources,
      extended.equipped, extended.now⟩

include sound ordered popped within own positive known in
theorem awaits_deliver {unit : Coprocessor}
    (attached : ((station.turn next.tick memory latency).deliver next.event).coprocessor = some unit) :
    (after.scheduleAll
      ((station.turn next.tick memory latency).deliver next.event).effects.posts).Awaits unit := by
  rcases sound.extends_or_edge ordered popped within own positive known with
    ⟨core, same⟩ | ⟨others, extended⟩
  · have framed := (station.turn next.tick memory latency).frame_coprocessorEdge.2.2
    rw [same] at attached ⊢
    obtain ⟨former, found, rfl⟩ := Option.map_eq_some_iff.mp (framed.symm.trans attached)
    refine (sound.awaits former found).edge popped ?_
    have posts : ((station.turn next.tick memory latency).coprocessorEdge).effects.posts =
        (former.edge next.tick).2.posts := by
      unfold Turn.coprocessorEdge
      rw [found]
      rfl
    exact posts ▸ List.Subset.refl _
  · -- the edge was asked for before this event, or is among its posts
    obtain ⟨former, found, owner, asks⟩ := extended.asks unit attached
    have proper := extended.proper (sound.proper_turn within positive known)
    have awaits := sound.awaits former found
    obtain ⟨-, now, -⟩ := Queue.pop?_eq_some popped
    intro tick asked
    rw [owner]
    rcases asks tick asked with before | posted
    · exact (awaits.pop? popped (others former.owner)).scheduleAll _ tick before
    · have future := (proper.posts _ posted).1
      rw [extended.now] at future
      exact Queue.Awaits.of_mem posted (now ▸ future)

include sound ordered popped within own positive known in
theorem take : Station.Sound spec
    (after.scheduleAll ((station.turn next.tick memory latency).deliver next.event).effects.posts)
    (log ++ ((station.turn next.tick memory latency).deliver next.event).effects.log) index
    (notes.extend next.tick station.core
      ((station.turn next.tick memory latency).deliver next.event).core)
    ⟨((station.turn next.tick memory latency).deliver next.event).core,
      ((station.turn next.tick memory latency).deliver next.event).coprocessor⟩ := by
  obtain ⟨proper, id, -, equipped, now⟩ :=
    @frame_deliver _ _ _ _ _ _ _ _ sound ordered popped within own memory latency positive known
  obtain ⟨since, stands⟩ := sound.stands_turn ordered popped within
  have addressed : next.event.core = (station.turn next.tick memory latency).core.id :=
    own.trans sound.numbered.symm
  have time : after.now = next.tick := (Queue.pop?_eq_some popped).2.1
  apply of_turn (ordered.pop? popped).1 proper id (now.trans time.symm) (equipped.trans sound.equipped)
  · intro unit attached
    exact sound.awaits_deliver ordered popped within own positive known attached
  · rw [time]
    exact Turn.stands_deliver rfl (sound.proper_turn within positive known) addressed stands

end take

end Station.Sound

end CoreTiming
