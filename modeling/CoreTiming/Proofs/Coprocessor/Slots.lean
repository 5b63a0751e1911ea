import CoreTiming.Proofs.Coprocessor.Consistency

namespace CoreTiming.Coprocessor

theorem countP_start (width cycle executing : Nat) (queue : List Job) :
    (start width cycle executing queue).1.countP Job.isExecuting =
      queue.countP Job.isExecuting + (start width cycle executing queue).2.length := by
  induction queue generalizing executing with
  | nil => rfl
  | cons job rest ih =>
    unfold start
    split
    · rfl
    · split
      · rename_i begun
        simp only [List.countP_cons, begun, if_true, ih]
        omega
      · rename_i waiting
        split
        · rfl
        · have started : ({ job with finishCycle := some (addUpToHorizon cycle job.duration) } :
              Job).isExecuting = true := rfl
          simp only [List.countP_cons, List.length_cons, ih, started, waiting, if_true, Bool.false_eq_true,
            if_false]
          omega

theorem length_start_le {width cycle executing : Nat} (bound : executing ≤ width) (queue : List Job) :
    executing + (start width cycle executing queue).2.length ≤ width := by
  induction queue generalizing executing with
  | nil => exact bound
  | cons job rest ih =>
    unfold start
    split
    · exact bound
    · rename_i room
      split
      · exact ih bound
      · split
        · exact bound
        · have others := @ih (executing + 1) (by omega)
          simp only [List.length_cons]
          omega

theorem full_of_waiting {width cycle executing : Nat} {queue : List Job}
    (ready : (queue.map Job.readyCycle).Pairwise (· ≤ ·)) {job : Job}
    (member : job ∈ (start width cycle executing queue).1) (waiting : job.finishCycle = none)
    (due : job.readyCycle ≤ cycle) :
    width ≤ executing + (start width cycle executing queue).2.length := by
  induction queue generalizing executing with
  | nil => cases member
  | cons next rest ih =>
    obtain ⟨first, sorted⟩ := List.pairwise_cons.mp ready
    rw [start] at member ⊢
    by_cases full : width ≤ executing
    · rw [if_pos full]
      exact Nat.le_trans full (Nat.le_add_right ..)
    · rw [if_neg full] at member ⊢
      by_cases begun : next.isExecuting = true
      · rw [if_pos begun] at member ⊢
        rcases List.mem_cons.mp member with rfl | behind
        · simp [Job.isExecuting, waiting] at begun
        · exact ih sorted behind
      · rw [if_neg begun] at member ⊢
        by_cases early : cycle < next.readyCycle
        · -- the scan stops here, and whatever stands behind is not ready either
          rw [if_pos early] at member
          have later : next.readyCycle ≤ job.readyCycle := by
            rcases List.mem_cons.mp member with rfl | behind
            · exact Nat.le_refl _
            · exact first _ (List.mem_map_of_mem behind)
          omega
        · rw [if_neg early] at member ⊢
          rcases List.mem_cons.mp member with rfl | behind
          · cases waiting
          · have others := ih sorted behind
            simp only [List.length_cons]
            omega

theorem map_readyCycle_issueJobs (unit : Coprocessor) (cycle : Nat) :
    (unit.issueJobs cycle).1.queue.map Job.readyCycle = unit.queue.map Job.readyCycle :=
  map_start (fun _ _ => rfl) ..

theorem occupancy_issueJobs (unit : Coprocessor) (cycle : Nat) :
    (unit.issueJobs cycle).1.occupancy = unit.occupancy := by
  have lengths := congrArg List.length (map_readyCycle_issueJobs unit cycle)
  rw [List.length_map, List.length_map] at lengths
  exact lengths

theorem executing_issueJobs (unit : Coprocessor) (cycle : Nat) :
    (unit.issueJobs cycle).1.executing =
      unit.executing + (start unit.issueWidth cycle unit.executing unit.queue).2.length :=
  countP_start ..

structure Built (unit : Coprocessor) (spec : CoprocessorSpec) : Prop where
  capacity : unit.capacity = spec.queueDepth
  width : unit.issueWidth = match spec.issue with
    | .single => 1
    | .multi => max spec.issueWidth 1
  clock : unit.clock = spec.clock

namespace Built

variable {unit after : Coprocessor} {spec : CoprocessorSpec}

theorem poll (built : unit.Built spec) {handle tick : Nat} {result : OffloadResult} {effects : Effects}
    (polled : unit.poll? handle tick = some (result, after, effects)) : after.Built spec := by
  obtain ⟨-, ⟨-, -, -, rfl⟩ | ⟨_, _, -, -, -, -, -, -, rfl⟩⟩ := poll?_eq_some polled
  · exact { built with }
  · exact { built with }

theorem edge (built : unit.Built spec) (now : Nat) : (unit.edge now).1.Built spec := by
  by_cases due : unit.nextEdge = some now
  · rw [(edge_of_eq due).1]
    exact { built with }
  · rw [edge_of_ne due]
    exact built

end Built

structure Orderly (unit : Coprocessor) (now : Nat) : Prop where
  fits : unit.occupancy ≤ unit.capacity
  slots : unit.executing ≤ unit.issueWidth
  ready : (unit.queue.map Job.readyCycle).Pairwise (· ≤ ·)
  past : ∀ cycle ∈ unit.queue.map Job.readyCycle, cycle ≤ unit.clock.cycleAtOrAfter now
  marked : unit.occupancy ≤ unit.counters.highWater

namespace Orderly

variable {unit after : Coprocessor} {now : Nat}

theorem ofSpec (owner : Nat) (spec : CoprocessorSpec) : (ofSpec owner spec).Orderly now where
  fits := Nat.zero_le _
  slots := Nat.zero_le _
  ready := .nil
  past := by simp [Coprocessor.ofSpec]
  marked := Nat.zero_le _

theorem wait (orderly : unit.Orderly now) {later : Nat} (order : now ≤ later) : unit.Orderly later := by
  have reached : unit.clock.cycleAtOrAfter now ≤ unit.clock.cycleAtOrAfter later :=
    Nat.div_le_div_right (Nat.add_le_add_right order _)
  exact { orderly with past := fun cycle member => Nat.le_trans (orderly.past cycle member) reached }

theorem leave (orderly : unit.Orderly now) (fewer : after.queue.Sublist unit.queue)
    (capacity : after.capacity = unit.capacity) (width : after.issueWidth = unit.issueWidth)
    (clock : after.clock = unit.clock) (mark : after.counters.highWater = unit.counters.highWater) :
    after.Orderly now where
  fits := by
    rw [capacity]
    exact Nat.le_trans fewer.length_le orderly.fits
  slots := by
    rw [width]
    exact Nat.le_trans (fewer.countP_le) orderly.slots
  ready := orderly.ready.sublist (fewer.map _)
  past cycle member := by
    rw [clock]
    exact orderly.past cycle ((fewer.map _).subset member)
  marked := by
    rw [mark]
    exact Nat.le_trans fewer.length_le orderly.marked

theorem withEdge (orderly : unit.Orderly now) (edge : Option Nat) :
    ({ unit with nextEdge := edge } : Coprocessor).Orderly now :=
  { orderly with }

theorem accept (orderly : unit.Orderly now) (room : ¬ unit.capacity ≤ unit.occupancy) (work : Offload) :
    (unit.accept now work).Orderly now where
  fits := by
    have fits := orderly.fits
    simp only [occupancy, Coprocessor.accept, List.length_append, List.length_singleton] at room fits ⊢
    omega
  slots := by
    have slots := orderly.slots
    simp only [executing, Coprocessor.accept, List.countP_append] at slots ⊢
    exact slots
  ready := by
    simp only [Coprocessor.accept, List.map_append, List.map_cons, List.map_nil]
    refine List.pairwise_append.mpr ⟨orderly.ready, List.pairwise_singleton .., ?_⟩
    intro cycle member last single
    rw [List.mem_singleton.mp single]
    exact orderly.past cycle member
  past cycle member := by
    simp only [Coprocessor.accept, List.map_append, List.map_cons, List.map_nil] at member
    rcases List.mem_append.mp member with member | single
    · exact orderly.past cycle member
    · rw [List.mem_singleton.mp single]
      exact Nat.le_refl _
  marked := Nat.le_max_right ..

theorem retire (orderly : unit.Orderly now) (cycle : Nat) : (unit.retire cycle).1.Orderly now :=
  orderly.leave List.filter_sublist rfl rfl rfl rfl

theorem issueJobs (orderly : unit.Orderly now) (cycle : Nat) : (unit.issueJobs cycle).1.Orderly now where
  fits := by
    rw [occupancy_issueJobs]
    exact orderly.fits
  slots := by
    rw [executing_issueJobs]
    exact length_start_le orderly.slots unit.queue
  ready := by
    rw [map_readyCycle_issueJobs]
    exact orderly.ready
  past := by
    rw [map_readyCycle_issueJobs]
    exact orderly.past
  marked := by
    rw [occupancy_issueJobs]
    exact orderly.marked

theorem submit (orderly : unit.Orderly now) (work : Offload) : (unit.submit now work).2.1.Orderly now := by
  by_cases full : unit.capacity ≤ unit.occupancy
  · rw [submit_of_full full]
    exact { orderly with }
  · obtain ⟨edge, same⟩ := submit_of_room_eq full now work
    rw [same]
    exact (orderly.accept full work).withEdge edge

theorem poll (orderly : unit.Orderly now) {handle tick : Nat} {result : OffloadResult} {effects : Effects}
    (polled : unit.poll? handle tick = some (result, after, effects)) : after.Orderly now := by
  obtain ⟨-, ⟨-, -, -, rfl⟩ | ⟨_, _, -, -, -, -, -, -, rfl⟩⟩ := poll?_eq_some polled
  · exact { orderly with }
  · exact orderly.leave List.eraseP_sublist rfl rfl rfl rfl

theorem settle (orderly : unit.Orderly now) (cycle : Nat) : (unit.settle cycle).Orderly now :=
  ((orderly.withEdge none).retire cycle).issueJobs cycle

theorem edge (orderly : unit.Orderly now) : (unit.edge now).1.Orderly now := by
  by_cases due : unit.nextEdge = some now
  · rw [(edge_of_eq due).1]
    exact (orderly.settle (unit.clock.cycleAt now)).withEdge _
  · rw [edge_of_ne due]
    exact orderly

theorem highWater_poll {handle tick : Nat} {result : OffloadResult} {effects : Effects}
    (polled : unit.poll? handle tick = some (result, after, effects)) :
    after.counters.highWater = unit.counters.highWater := by
  obtain ⟨-, ⟨-, -, -, rfl⟩ | ⟨_, _, -, -, -, -, -, -, rfl⟩⟩ := poll?_eq_some polled
  · rfl
  · rfl

theorem highWater_edge (unit : Coprocessor) (now : Nat) :
    (unit.edge now).1.counters.highWater = unit.counters.highWater := by
  by_cases due : unit.nextEdge = some now
  · rw [(edge_of_eq due).1]
    rfl
  · rw [edge_of_ne due]

/-- A job that is ready waits behind an edge only while all slots are taken. -/
theorem full_of_waiting (orderly : unit.Orderly now) (due : unit.nextEdge = some now) {job : Job}
    (member : job ∈ (unit.edge now).1.queue) (waiting : job.finishCycle = none)
    (ready : job.readyCycle ≤ unit.clock.cycleAt now) :
    (unit.edge now).1.executing = unit.issueWidth := by
  have retired := (orderly.withEdge none).retire (unit.clock.cycleAt now)
  rw [(edge_of_eq due).1] at member ⊢
  have enough := Coprocessor.full_of_waiting retired.ready member waiting ready
  have bound := (retired.issueJobs (unit.clock.cycleAt now)).slots
  rw [executing_issueJobs] at bound
  exact (executing_issueJobs ..).trans (Nat.le_antisymm bound enough)

end Orderly

end CoreTiming.Coprocessor
