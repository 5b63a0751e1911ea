import CoreTiming.Event.Queue

namespace CoreTiming.Queue

/-- The events stand in the order in which they will be taken, and none of them has passed. -/
structure Ordered (queue : Queue) : Prop where
  sorted : queue.pending.Pairwise Pending.Before
  present : ∀ pending ∈ queue.pending, queue.now ≤ pending.tick
  numbered : ∀ pending ∈ queue.pending, pending.sequence < queue.nextSequence

theorem ordered_empty : Ordered {} :=
  ⟨.nil, by simp, by simp⟩

theorem before_trans {x y z : Pending} (first : x.Before y) (second : y.Before z) : x.Before z := by
  unfold Pending.Before at *
  omega

theorem before_of_not_before {x y : Pending} (different : x.sequence < y.sequence)
    (behind : ¬ y.Before x) : x.Before y := by
  unfold Pending.Before at *
  omega

theorem mem_place {new pending : Pending} {list : List Pending} :
    pending ∈ place new list ↔ pending = new ∨ pending ∈ list := by
  induction list with
  | nil => simp [place]
  | cons next rest ih =>
    unfold place
    split
    · simp
    · simp only [List.mem_cons, ih, or_left_comm]

theorem pairwise_place {new : Pending} {list : List Pending} (sorted : list.Pairwise Pending.Before)
    (last : ∀ pending ∈ list, pending.sequence < new.sequence) :
    (place new list).Pairwise Pending.Before := by
  induction list with
  | nil => exact List.pairwise_singleton ..
  | cons next rest ih =>
    obtain ⟨head, tail⟩ := List.pairwise_cons.mp sorted
    unfold place
    split
    · rename_i first
      refine List.pairwise_cons.mpr ⟨?_, sorted⟩
      intro pending member
      rcases List.mem_cons.mp member with rfl | member
      · exact first
      · exact before_trans first (head pending member)
    · rename_i behind
      refine List.pairwise_cons.mpr ⟨?_, ih tail fun pending member => last pending (by simp [member])⟩
      intro pending member
      rcases mem_place.mp member with rfl | member
      · exact before_of_not_before (last next (by simp)) behind
      · exact head pending member

theorem mem_schedule {queue : Queue} {tick : Nat} {event : Event} {pending : Pending} :
    pending ∈ (queue.schedule tick event).pending ↔
      pending = ⟨max tick queue.now, queue.nextSequence, event⟩ ∨ pending ∈ queue.pending :=
  mem_place

theorem Ordered.schedule {queue : Queue} (ordered : queue.Ordered) (tick : Nat) (event : Event) :
    (queue.schedule tick event).Ordered where
  sorted := pairwise_place ordered.sorted ordered.numbered
  present pending member := by
    rcases mem_schedule.mp member with rfl | member
    · exact Nat.le_max_right ..
    · exact ordered.present pending member
  numbered pending member := by
    rcases mem_schedule.mp member with rfl | member
    · exact Nat.lt_succ_self _
    · exact Nat.lt_succ_of_lt (ordered.numbered pending member)

def scheduleAll (queue : Queue) (posts : List (Nat × Event)) : Queue :=
  posts.foldl (fun queue post => queue.schedule post.1 post.2) queue

theorem now_scheduleAll (queue : Queue) (posts : List (Nat × Event)) :
    (queue.scheduleAll posts).now = queue.now := by
  induction posts generalizing queue with
  | nil => rfl
  | cons post posts ih => exact ih _

theorem Ordered.scheduleAll {queue : Queue} (ordered : queue.Ordered) (posts : List (Nat × Event)) :
    (queue.scheduleAll posts).Ordered := by
  induction posts generalizing queue with
  | nil => exact ordered
  | cons post posts ih => exact ih (ordered.schedule ..)

theorem of_mem_scheduleAll {queue : Queue} {posts : List (Nat × Event)} {pending : Pending}
    (member : pending ∈ (queue.scheduleAll posts).pending) :
    pending ∈ queue.pending ∨
      ∃ post ∈ posts, pending.tick = max post.1 queue.now ∧ pending.event = post.2 := by
  induction posts generalizing queue with
  | nil => exact .inl member
  | cons post posts ih =>
    rcases ih member with member | ⟨other, among, same⟩
    · rcases mem_schedule.mp member with rfl | member
      · exact .inr ⟨post, by simp, rfl, rfl⟩
      · exact .inl member
    · exact .inr ⟨other, by simp [among], same⟩

theorem mem_scheduleAll_of_mem {queue : Queue} {posts : List (Nat × Event)} {pending : Pending}
    (member : pending ∈ queue.pending) : pending ∈ (queue.scheduleAll posts).pending := by
  induction posts generalizing queue with
  | nil => exact member
  | cons post posts ih => exact ih (mem_schedule.mpr (.inr member))

theorem exists_mem_scheduleAll {queue : Queue} {posts : List (Nat × Event)} {post : Nat × Event}
    (among : post ∈ posts) :
    ∃ pending ∈ (queue.scheduleAll posts).pending,
      pending.tick = max post.1 queue.now ∧ pending.event = post.2 := by
  induction posts generalizing queue with
  | nil => cases among
  | cons first posts ih =>
    rcases List.mem_cons.mp among with rfl | among
    · have placed : ⟨max post.1 queue.now, queue.nextSequence, post.2⟩ ∈
          (queue.schedule post.1 post.2).pending := mem_schedule.mpr (.inl rfl)
      exact ⟨_, @mem_scheduleAll_of_mem _ posts _ placed, rfl, rfl⟩
    · exact @ih (queue.schedule first.1 first.2) among

theorem pop?_eq_some {queue after : Queue} {next : Pending} (popped : queue.pop? = some (next, after)) :
    queue.pending = next :: after.pending ∧ after.now = next.tick ∧
      after.nextSequence = queue.nextSequence := by
  unfold pop? at popped
  split at popped
  · cases popped
  · rename_i first rest same
    cases popped
    exact ⟨same, rfl, rfl⟩

theorem dispatched_of_pop? {queue after : Queue} {next : Pending}
    (popped : queue.pop? = some (next, after)) : after.dispatched = queue.dispatched + 1 := by
  unfold pop? at popped
  split at popped
  · cases popped
  · cases popped
    rfl

theorem pop?_eq_none {queue : Queue} (empty : queue.pop? = none) : queue.pending = [] := by
  unfold pop? at empty
  split at empty
  · assumption
  · cases empty

theorem Ordered.before_of_pop? {queue after : Queue} {next : Pending} (ordered : queue.Ordered)
    (popped : queue.pop? = some (next, after)) : ∀ pending ∈ after.pending, next.Before pending := by
  obtain ⟨same, -, -⟩ := pop?_eq_some popped
  have sorted := ordered.sorted
  rw [same] at sorted
  exact (List.pairwise_cons.mp sorted).1

theorem tick_le_of_before {x y : Pending} (before : x.Before y) : x.tick ≤ y.tick := by
  unfold Pending.Before at before
  omega

theorem Ordered.pop? {queue after : Queue} {next : Pending} (ordered : queue.Ordered)
    (popped : queue.pop? = some (next, after)) : after.Ordered ∧ queue.now ≤ after.now := by
  have first := ordered.before_of_pop? popped
  obtain ⟨same, now, sequence⟩ := pop?_eq_some popped
  have sorted := ordered.sorted
  have numbered := ordered.numbered
  have present := ordered.present
  rw [same] at sorted numbered present
  refine ⟨⟨(List.pairwise_cons.mp sorted).2, ?_, ?_⟩, ?_⟩
  · intro pending member
    rw [now]
    exact tick_le_of_before (first pending member)
  · intro pending member
    rw [sequence]
    exact numbered pending (by simp [member])
  · rw [now]
    exact present next (by simp)

def agenda (queue : Queue) (kind : Event → Bool) : List (Nat × Event) :=
  (queue.pending.filter (kind ·.event)).map fun pending => (pending.tick, pending.event)

def Precedes (x y : Nat × Event) : Prop :=
  x.1 < y.1 ∨ x.1 = y.1 ∧ x.2.priority < y.2.priority

instance (x y : Nat × Event) : Decidable (Precedes x y) :=
  inferInstanceAs (Decidable (_ ∨ _))

def insertBehind (item : Nat × Event) : List (Nat × Event) → List (Nat × Event)
  | [] => [item]
  | next :: rest =>
    if Precedes item next then item :: next :: rest else next :: insertBehind item rest

theorem insertBehind_of_precedes {item : Nat × Event} {list : List (Nat × Event)}
    (first : ∀ other ∈ list, Precedes item other) : insertBehind item list = item :: list := by
  cases list with
  | nil => rfl
  | cons next rest => exact if_pos (first next (by simp))

theorem before_iff_precedes {x y : Pending} (later : y.sequence < x.sequence) :
    x.Before y ↔ Precedes (x.tick, x.event) (y.tick, y.event) := by
  unfold Pending.Before Precedes
  simp only
  omega

theorem filter_place {kind : Event → Bool} {new : Pending} {list : List Pending}
    (chosen : kind new.event = true) (sorted : list.Pairwise Pending.Before)
    (last : ∀ pending ∈ list, pending.sequence < new.sequence) :
    ((place new list).filter (kind ·.event)).map (fun pending => (pending.tick, pending.event)) =
      insertBehind (new.tick, new.event)
        ((list.filter (kind ·.event)).map fun pending => (pending.tick, pending.event)) := by
  induction list with
  | nil => simp [place, chosen, insertBehind]
  | cons next rest ih =>
    obtain ⟨head, tail⟩ := List.pairwise_cons.mp sorted
    have others := ih tail fun pending member => last pending (by simp [member])
    unfold place
    split
    · -- the newest event goes before all that it precedes, and so do the events of its kind
      rename_i first
      rw [List.filter_cons_of_pos (by simpa using chosen), List.map_cons, insertBehind_of_precedes]
      intro item member
      obtain ⟨pending, among, rfl⟩ := List.mem_map.mp member
      have listed := (List.mem_filter.mp among).1
      refine (before_iff_precedes (last pending listed)).mp ?_
      rcases List.mem_cons.mp listed with rfl | behind
      · exact first
      · exact before_trans first (head pending behind)
    · rename_i behind
      cases same : kind next.event with
      | true =>
        have later : ¬ Precedes (new.tick, new.event) (next.tick, next.event) :=
          fun precedes => behind ((before_iff_precedes (last next (by simp))).mpr precedes)
        rw [List.filter_cons_of_pos (by simpa using same), List.filter_cons_of_pos (by simpa using same),
          List.map_cons, List.map_cons, others, insertBehind, if_neg later]
      | false =>
        rw [List.filter_cons_of_neg (by simp [same]), List.filter_cons_of_neg (by simp [same])]
        exact others

theorem filter_place_of_not {kind : Event → Bool} {new : Pending} {list : List Pending}
    (other : kind new.event = false) :
    (place new list).filter (kind ·.event) = list.filter (kind ·.event) := by
  induction list with
  | nil => simp [place, other]
  | cons next rest ih =>
    unfold place
    split
    · simp [other]
    · simp only [List.filter_cons, ih]

theorem agenda_schedule {queue : Queue} (ordered : queue.Ordered) (kind : Event → Bool) (tick : Nat)
    (event : Event) :
    (queue.schedule tick event).agenda kind =
      if kind event then insertBehind (max tick queue.now, event) (queue.agenda kind)
      else queue.agenda kind := by
  cases chosen : kind event with
  | true =>
    rw [if_pos rfl]
    exact filter_place chosen ordered.sorted ordered.numbered
  | false =>
    rw [if_neg Bool.false_ne_true]
    exact congrArg _ (filter_place_of_not chosen)

/-- Scheduling acts on the events of each kind alone. -/
theorem agenda_scheduleAll_eq {queue : Queue} (ordered : queue.Ordered) (kind : Event → Bool)
    {posts : List (Nat × Event)} (future : ∀ post ∈ posts, queue.now ≤ post.1) :
    (queue.scheduleAll posts).agenda kind =
      (posts.filter (kind ·.2)).foldl (fun list item => insertBehind item list) (queue.agenda kind) := by
  induction posts generalizing queue with
  | nil => rfl
  | cons post posts ih =>
    have rest := ih (ordered.schedule post.1 post.2) fun other member => future other (by simp [member])
    have present : max post.1 queue.now = post.1 := Nat.max_eq_left (future post (by simp))
    refine rest.trans ?_
    rw [agenda_schedule ordered, present]
    cases chosen : kind post.2 with
    | true =>
      rw [if_pos rfl, List.filter_cons_of_pos (by simpa using chosen)]
      rfl
    | false =>
      rw [if_neg Bool.false_ne_true, List.filter_cons_of_neg (by simp [chosen])]

theorem perm_insertBehind (item : Nat × Event) (list : List (Nat × Event)) :
    (insertBehind item list).Perm (item :: list) := by
  induction list with
  | nil => exact .refl _
  | cons next rest ih =>
    unfold insertBehind
    split
    · exact .refl _
    · exact (ih.cons next).trans (.swap ..)

theorem filter_agenda {queue : Queue} {narrow wide : Event → Bool}
    (within : ∀ event, narrow event = true → wide event = true) :
    (queue.agenda wide).filter (narrow ·.2) = queue.agenda narrow := by
  unfold agenda
  rw [List.filter_map, List.filter_filter]
  congr 1
  apply List.filter_congr
  intro pending member
  cases chosen : narrow pending.event with
  | true => simp [chosen, within _ chosen]
  | false => simp [chosen]

def insertLate (item : Nat × Event) : List (Nat × Event) → List (Nat × Event)
  | [] => [item]
  | next :: rest => if item.1 < next.1 then item :: next :: rest else next :: insertLate item rest

theorem insertBehind_eq_insertLate {item : Nat × Event} {list : List (Nat × Event)}
    (same : ∀ other ∈ list, other.2.priority = item.2.priority) :
    insertBehind item list = insertLate item list := by
  induction list with
  | nil => rfl
  | cons next rest ih =>
    have priority := same next (by simp)
    have precedes : Precedes item next ↔ item.1 < next.1 := by
      unfold Precedes
      omega
    unfold insertBehind insertLate
    simp only [precedes, ih fun other member => same other (by simp [member])]

theorem mem_insertLate {item other : Nat × Event} {list : List (Nat × Event)} :
    other ∈ insertLate item list ↔ other = item ∨ other ∈ list := by
  induction list with
  | nil => simp [insertLate]
  | cons next rest ih =>
    unfold insertLate
    split
    · simp
    · simp only [List.mem_cons, ih, or_left_comm]

theorem foldl_insertBehind {priority : Nat} {posts list : List (Nat × Event)}
    (posted : ∀ post ∈ posts, post.2.priority = priority)
    (listed : ∀ item ∈ list, item.2.priority = priority) :
    posts.foldl (fun list item => insertBehind item list) list =
      posts.foldl (fun list item => insertLate item list) list := by
  induction posts generalizing list with
  | nil => rfl
  | cons post posts ih =>
    have first := posted post (by simp)
    have placed := insertBehind_eq_insertLate fun other member => (listed other member).trans first.symm
    simp only [List.foldl_cons, placed]
    refine ih (fun other member => posted other (by simp [member])) fun item member => ?_
    rcases mem_insertLate.mp member with rfl | member
    · exact first
    · exact listed item member

theorem agenda_of_pop? {queue after : Queue} {next : Pending} (kind : Event → Bool)
    (popped : queue.pop? = some (next, after)) :
    queue.agenda kind =
      if kind next.event then (next.tick, next.event) :: after.agenda kind else after.agenda kind := by
  obtain ⟨same, -, -⟩ := pop?_eq_some popped
  unfold agenda
  rw [same]
  split
  · rename_i chosen
    rw [List.filter_cons_of_pos (by simpa using chosen), List.map_cons]
  · rename_i other
    rw [List.filter_cons_of_neg (by simpa using other)]

theorem mem_agenda {queue : Queue} {kind : Event → Bool} {tick : Nat} {event : Event} :
    (tick, event) ∈ queue.agenda kind ↔
      kind event = true ∧ ∃ pending ∈ queue.pending, pending.tick = tick ∧ pending.event = event := by
  simp only [agenda, List.mem_map, List.mem_filter, Prod.mk.injEq]
  constructor
  · rintro ⟨pending, ⟨member, chosen⟩, rfl, rfl⟩
    exact ⟨chosen, pending, member, rfl, rfl⟩
  · rintro ⟨chosen, pending, member, rfl, rfl⟩
    exact ⟨pending, ⟨member, chosen⟩, rfl, rfl⟩

theorem agenda_scheduleAll {queue : Queue} {kind : Event → Bool} {posts : List (Nat × Event)}
    {priority : Nat} (ordered : queue.Ordered)
    (same : ∀ event, kind event = true → event.priority = priority)
    (future : ∀ post ∈ posts, queue.now ≤ post.1) :
    (queue.scheduleAll posts).agenda kind =
      (posts.filter (kind ·.2)).foldl (fun list item => insertLate item list) (queue.agenda kind) := by
  rw [agenda_scheduleAll_eq ordered kind future]
  apply foldl_insertBehind
  · exact fun post member => same post.2 (by simpa using (List.mem_filter.mp member).2)
  · exact fun item member => same item.2 (mem_agenda.mp member).1

end CoreTiming.Queue
