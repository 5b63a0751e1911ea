import CoreTiming.Timeline

namespace CoreTiming

def sumOver {α : Type} (view : α → Nat) (list : List α) : Nat :=
  list.foldr (fun item rest => view item + rest) 0

@[simp] theorem sumOver_nil {α : Type} (view : α → Nat) : sumOver view [] = 0 := rfl

@[simp] theorem sumOver_cons {α : Type} (view : α → Nat) (item : α) (rest : List α) :
    sumOver view (item :: rest) = view item + sumOver view rest := rfl

theorem sumOver_append {α : Type} (view : α → Nat) (first second : List α) :
    sumOver view (first ++ second) = sumOver view first + sumOver view second := by
  induction first with
  | nil => simp
  | cons item rest ih =>
    simp only [List.cons_append, sumOver_cons, ih]
    omega

namespace Event

/-- An edge may follow a response or a fault at the same tick, so those weigh more. -/
def rank : Event → Nat
  | coreEdge _ | coprocessorEdge _ => 1
  | response .. | fault .. => 2

def weight (tick : Nat) (event : Event) : Nat :=
  2 * (horizon - tick) + event.rank

theorem weight_le (tick : Nat) (event : Event) : event.weight tick ≤ 2 * horizon + 2 := by
  unfold weight
  cases event <;> simp only [rank] <;> omega

end Event

def Effects.weight (effects : Effects) : Nat :=
  sumOver (fun post => post.2.weight post.1) effects.posts

theorem Effects.weight_append (x y : Effects) : (x ++ y).weight = x.weight + y.weight := by
  unfold Effects.weight
  rw [Effects.posts_append, sumOver_append]

theorem Effects.weight_post (tick : Nat) (event : Event) :
    (Effects.post tick event).weight = event.weight tick := by
  simp [Effects.weight]

theorem Effects.weight_of_posts {effects : Effects} (h : effects.posts = []) : effects.weight = 0 := by
  simp [Effects.weight, h]

def Pending.weight (pending : Pending) : Nat :=
  pending.event.weight pending.tick

def Queue.weight (queue : Queue) : Nat :=
  sumOver Pending.weight queue.pending

namespace Queue

theorem weight_place (new : Pending) (pending : List Pending) :
    sumOver Pending.weight (place new pending) = new.weight + sumOver Pending.weight pending := by
  induction pending with
  | nil => rfl
  | cons next rest ih =>
    unfold place
    split
    · rfl
    · simp only [sumOver_cons, ih]
      omega

theorem weight_schedule_le (queue : Queue) (tick : Nat) (event : Event) :
    (queue.schedule tick event).weight ≤ queue.weight + event.weight tick := by
  have placed := weight_place ⟨max tick queue.now, queue.nextSequence, event⟩ queue.pending
  simp only [weight, schedule, placed, Pending.weight, Event.weight]
  omega

theorem weight_foldl_schedule_le (posts : List (Nat × Event)) (queue : Queue) :
    (posts.foldl (fun queue post => queue.schedule post.1 post.2) queue).weight ≤
      queue.weight + sumOver (fun post => post.2.weight post.1) posts := by
  induction posts generalizing queue with
  | nil => exact Nat.le_refl _
  | cons post posts ih =>
    have first := weight_schedule_le queue post.1 post.2
    have rest := ih (queue.schedule post.1 post.2)
    simp only [List.foldl_cons, sumOver_cons]
    omega

theorem weight_pop? {queue after : Queue} {next : Pending} (h : queue.pop? = some (next, after)) :
    queue.weight = next.weight + after.weight ∧ after.now = next.tick := by
  unfold pop? at h
  split at h
  · cases h
  · rename_i first rest same
    cases h
    simp [weight, same]

end Queue

end CoreTiming
