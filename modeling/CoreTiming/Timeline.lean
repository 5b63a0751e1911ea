import CoreTiming.Event.Queue
import CoreTiming.Log
import CoreTiming.Statistics

namespace CoreTiming

structure Effects where
  posts : List (Nat × Event) := []
  records : List Record := []
  log : List Log.Line := []
  deriving DecidableEq, Repr

namespace Effects

def none : Effects := {}

def post (tick : Nat) (event : Event) : Effects :=
  { posts := [(tick, event)] }

def record (component : String) (statistic : Statistic) (value : Nat) : Effects :=
  { records := [⟨component, statistic, value⟩] }

def line (line : Log.Line) : Effects :=
  { log := [line] }

def lineIf (condition : Bool) (line : Log.Line) : Effects :=
  if condition then .line line else .none

def append (x y : Effects) : Effects where
  posts := x.posts ++ y.posts
  records := x.records ++ y.records
  log := x.log ++ y.log

instance : Append Effects := ⟨append⟩

@[simp] theorem posts_append (x y : Effects) : (x ++ y).posts = x.posts ++ y.posts := rfl

@[simp] theorem posts_none : none.posts = [] := rfl

@[simp] theorem posts_post (tick : Nat) (event : Event) : (post tick event).posts = [(tick, event)] :=
  rfl

@[simp] theorem posts_record (component : String) (statistic : Statistic) (value : Nat) :
    (record component statistic value).posts = [] := rfl

@[simp] theorem posts_line (l : Log.Line) : (line l).posts = [] := rfl

@[simp] theorem posts_lineIf (condition : Bool) (l : Log.Line) : (lineIf condition l).posts = [] := by
  cases condition <;> rfl

end Effects

structure Timeline where
  queue : Queue := {}
  sink : Sink
  log : Array Log.Line := #[]
  deriving DecidableEq, Repr

namespace Timeline

def schedule (timeline : Timeline) (tick : Nat) (event : Event) : Timeline :=
  { timeline with queue := timeline.queue.schedule tick event }

def apply : Timeline → Effects → Timeline
  | ⟨queue, sink, log⟩, effects =>
    { queue := effects.posts.foldl (fun queue post => queue.schedule post.1 post.2) queue
      sink := sink.addAll effects.records
      log := log ++ effects.log }

theorem queue_apply (timeline : Timeline) (effects : Effects) :
    (timeline.apply effects).queue =
      effects.posts.foldl (fun queue post => queue.schedule post.1 post.2) timeline.queue := rfl

theorem sink_apply (timeline : Timeline) (effects : Effects) :
    (timeline.apply effects).sink = timeline.sink.addAll effects.records := rfl

theorem log_apply (timeline : Timeline) (effects : Effects) :
    (timeline.apply effects).log = timeline.log ++ effects.log := rfl

end Timeline

end CoreTiming
