import CoreTiming.Proofs.Coprocessor.Activity
import CoreTiming.Proofs.Event.Order

namespace CoreTiming

/-- The edge that the unit waits for is among the events to come. -/
def Queue.Awaits (queue : Queue) (unit : Coprocessor) : Prop :=
  ∀ tick, unit.nextEdge = some tick →
    ∃ pending ∈ queue.pending, pending.tick = tick ∧ pending.event = .coprocessorEdge unit.owner

def Coprocessor.PostsEdges (unit : Coprocessor) (now : Nat) (posts : List (Nat × Event)) : Prop :=
  ∀ post ∈ posts, now ≤ post.1 ∧ post.1 ≤ horizon ∧ post.2 = .coprocessorEdge unit.owner

def Coprocessor.Asks (before after : Coprocessor) (posts : List (Nat × Event)) : Prop :=
  after.owner = before.owner ∧ ∀ tick, after.nextEdge = some tick →
    before.nextEdge = some tick ∨ (tick, .coprocessorEdge before.owner) ∈ posts

namespace Coprocessor

variable {unit : Coprocessor} {now : Nat}

theorem postsEdges_nil (unit : Coprocessor) (now : Nat) : unit.PostsEdges now [] := by
  intro post member
  cases member

theorem asks_submit (unit : Coprocessor) (now : Nat) (work : Offload) :
    unit.Asks (unit.submit now work).2.1 (unit.submit now work).2.2.posts ∧
      unit.PostsEdges now (unit.submit now work).2.2.posts := by
  by_cases full : unit.capacity ≤ unit.occupancy
  · rw [submit_of_full full]
    exact ⟨⟨rfl, fun tick asked => .inl asked⟩, postsEdges_nil unit now⟩
  · rcases (submit_of_room full now work).2 with ⟨-, same, posts⟩ | ⟨near, same, posts⟩
    · rw [same, posts]
      exact ⟨⟨rfl, fun tick asked => .inl asked⟩, postsEdges_nil unit now⟩
    · obtain ⟨edge, requested, -, -, choice⟩ :=
        requestEdge_spec (unit.accept now work) (unit.clock.firstEdge now)
      rw [same, posts, requested]
      rcases choice with ⟨asked, silent⟩ | ⟨rfl, posted⟩
      · rw [silent]
        refine ⟨⟨rfl, fun tick found => .inl ?_⟩, postsEdges_nil unit now⟩
        exact found ▸ asked
      · rw [posted]
        refine ⟨⟨rfl, fun tick found => .inr ?_⟩, ?_⟩
        · rw [Option.some.inj found]
          exact List.mem_singleton_self _
        · intro post member
          rw [List.mem_singleton.mp member]
          exact ⟨Clock.le_firstEdge now, near, rfl⟩

theorem asks_poll? {handle : Nat} {result : OffloadResult} {after : Coprocessor} {effects : Effects}
    (polled : unit.poll? handle now = some (result, after, effects)) :
    after.owner = unit.owner ∧ after.nextEdge = unit.nextEdge ∧ effects.posts = [] := by
  obtain ⟨posts, ⟨-, -, -, rfl⟩ | ⟨-, -, -, -, -, -, -, -, rfl⟩⟩ := poll?_eq_some polled
  · exact ⟨rfl, rfl, posts⟩
  · exact ⟨rfl, rfl, posts⟩

theorem owner_edge (unit : Coprocessor) (now : Nat) : (unit.edge now).1.owner = unit.owner := by
  by_cases due : unit.nextEdge = some now
  · rw [(edge_of_eq due).1]
    rfl
  · rw [edge_of_ne due]

theorem asks_edge (unit : Coprocessor) (now : Nat) :
    (∀ tick, (unit.edge now).1.nextEdge = some tick →
        unit.nextEdge = some tick ∧ tick ≠ now ∨
          (tick, .coprocessorEdge unit.owner) ∈ (unit.edge now).2.posts) ∧
      unit.PostsEdges now (unit.edge now).2.posts := by
  by_cases due : unit.nextEdge = some now
  · obtain ⟨same, posts⟩ := edge_of_eq due
    rw [same, posts]
    constructor
    · intro tick asked
      refine .inr (List.mem_map.mpr ⟨tick, ?_, rfl⟩)
      exact Option.mem_toList.mpr asked
    · intro post member
      obtain ⟨tick, found, rfl⟩ := List.mem_map.mp member
      obtain ⟨future, bound, -⟩ := nextEdge?_eq_some (Option.mem_toList.mp found)
      exact ⟨Nat.le_of_lt future, bound, rfl⟩
  · rw [edge_of_ne due]
    refine ⟨fun tick asked => .inl ⟨asked, ?_⟩, postsEdges_nil unit now⟩
    rintro rfl
    exact due asked

end Coprocessor

namespace Queue

variable {queue after : Queue} {unit : Coprocessor}

theorem Awaits.of_mem {posts : List (Nat × Event)} {tick : Nat} {event : Event}
    (among : (tick, event) ∈ posts) (future : queue.now ≤ tick) :
    ∃ pending ∈ (queue.scheduleAll posts).pending, pending.tick = tick ∧ pending.event = event := by
  obtain ⟨pending, member, time, same⟩ := @exists_mem_scheduleAll queue posts _ among
  exact ⟨pending, member, time.trans (Nat.max_eq_left future), same⟩

theorem Awaits.scheduleAll (awaits : queue.Awaits unit) (posts : List (Nat × Event)) :
    (queue.scheduleAll posts).Awaits unit := by
  intro tick asked
  obtain ⟨pending, member, same⟩ := awaits tick asked
  exact ⟨pending, mem_scheduleAll_of_mem member, same⟩

theorem Awaits.asks (awaits : queue.Awaits unit) {moved : Coprocessor} {posts all : List (Nat × Event)}
    (asks : unit.Asks moved posts) (edges : unit.PostsEdges queue.now posts) (among : posts ⊆ all) :
    (queue.scheduleAll all).Awaits moved := by
  intro tick asked
  rw [asks.1]
  rcases asks.2 tick asked with before | posted
  · exact awaits.scheduleAll all tick before
  · exact Awaits.of_mem (among posted) (edges _ posted).1

theorem Awaits.pop? (awaits : queue.Awaits unit) {next : Pending} (popped : queue.pop? = some (next, after))
    (other : next.event ≠ .coprocessorEdge unit.owner) : after.Awaits unit := by
  intro tick asked
  obtain ⟨pending, member, time, same⟩ := awaits tick asked
  rw [(pop?_eq_some popped).1] at member
  rcases List.mem_cons.mp member with rfl | member
  · exact absurd same other
  · exact ⟨pending, member, time, same⟩

theorem Awaits.edge (awaits : queue.Awaits unit) {next : Pending}
    (popped : queue.pop? = some (next, after)) {all : List (Nat × Event)}
    (among : (unit.edge next.tick).2.posts ⊆ all) :
    (after.scheduleAll all).Awaits (unit.edge next.tick).1 := by
  obtain ⟨first, time, -⟩ := pop?_eq_some popped
  obtain ⟨asks, edges⟩ := unit.asks_edge next.tick
  intro tick asked
  rw [unit.owner_edge]
  rcases asks tick asked with ⟨before, different⟩ | posted
  · obtain ⟨pending, member, due, same⟩ := awaits tick before
    rw [first] at member
    rcases List.mem_cons.mp member with rfl | member
    · exact absurd due.symm different
    · exact ⟨pending, mem_scheduleAll_of_mem member, due, same⟩
  · refine Awaits.of_mem (among posted) ?_
    rw [time]
    exact (edges _ posted).1

theorem Awaits.tick_le (awaits : queue.Awaits unit) (ordered : queue.Ordered) {next : Pending}
    (popped : queue.pop? = some (next, after)) {tick : Nat} (asked : unit.nextEdge = some tick) :
    next.tick ≤ tick := by
  obtain ⟨pending, member, rfl, -⟩ := awaits tick asked
  rw [(pop?_eq_some popped).1] at member
  rcases List.mem_cons.mp member with rfl | member
  · exact Nat.le_refl _
  · exact tick_le_of_before (ordered.before_of_pop? popped pending member)

end Queue

end CoreTiming
