import CoreTiming.Config.Platform
import CoreTiming.Program.Operation
import CoreTiming.Timeline

namespace CoreTiming

structure Job where
  handle : Nat
  work : Offload
  submittedAt : Nat
  /-- The first cycle in which the job may start. -/
  readyCycle : Nat
  /-- The cycle in which the job ends, once it has started. -/
  finishCycle : Option Nat := none
  deriving DecidableEq, Repr

namespace Job

def duration (job : Job) : Nat :=
  max job.work.cycles 1

def isExecuting (job : Job) : Bool :=
  job.finishCycle.isSome

def finishedBy (job : Job) (cycle : Nat) : Bool :=
  job.finishCycle.any (· ≤ cycle)

end Job

structure OffloadResult where
  handle : Nat
  instruction : Nat
  payload : List UInt8
  submittedAt : Nat
  completedAt : Nat
  deriving DecidableEq, Repr

def handleName (handle : Nat) : String :=
  s!"offload#{handle}"

structure Backpressure where
  capacity : Nat
  deriving DecidableEq, Repr

def Backpressure.message (refusal : Backpressure) : String :=
  s!"coprocessor queue full ({refusal.capacity} entries)"

structure CoprocessorCounters where
  submitted : Nat := 0
  executed : Nat := 0
  rejected : Nat := 0
  busyCycles : Nat := 0
  highWater : Nat := 0
  deriving DecidableEq, Repr

structure Coprocessor where
  owner : Nat
  clock : Clock
  capacity : Nat
  issue : IssueMode
  issueWidth : Nat
  verbose : Nat
  queue : List Job := []
  /-- Results that the core has not collected. -/
  done : List OffloadResult := []
  nextHandle : Nat := 0
  /-- The earliest edge that has been asked for and has not come. -/
  nextEdge : Option Nat := none
  counters : CoprocessorCounters := {}
  deriving DecidableEq, Repr

namespace Statistic

def executionCycles : Statistic := ⟨"offload_exec_cycles", "cycles", sampleLevel⟩
def offloadsExecuted : Statistic := ⟨"ops_executed", "count", summaryLevel⟩
def offloadsAccepted : Statistic := ⟨"ops_submitted", "count", detailLevel⟩
def offloadsRejected : Statistic := ⟨"ops_rejected", "count", detailLevel⟩
def busyCycles : Statistic := ⟨"busy_cycles", "cycles", detailLevel⟩
def queueHighWater : Statistic := ⟨"queue_high_water", "entries", occupancyLevel⟩

end Statistic

namespace Coprocessor

def ofSpec (owner : Nat) (spec : CoprocessorSpec) : Coprocessor where
  owner := owner
  clock := spec.clock
  capacity := spec.queueDepth
  issue := spec.issue
  issueWidth := match spec.issue with
    | .single => 1
    | .multi => max spec.issueWidth 1
  verbose := spec.verbose

def name (unit : Coprocessor) : String :=
  s!"cpu.{coreName unit.owner}.co_proc"

def offloadVerbosity : Nat := 4

def logsOffloads (unit : Coprocessor) : Bool :=
  offloadVerbosity ≤ unit.verbose

def occupancy (unit : Coprocessor) : Nat :=
  unit.queue.length

def executing (unit : Coprocessor) : Nat :=
  unit.queue.countP Job.isExecuting

def requestEdge (unit : Coprocessor) (tick : Nat) : Coprocessor × Effects :=
  if unit.nextEdge.any (· ≤ tick) then (unit, .none)
  else ({ unit with nextEdge := some tick }, .post tick (.coprocessorEdge unit.owner))

def accept (unit : Coprocessor) (now : Nat) (work : Offload) : Coprocessor :=
  let queue := unit.queue ++ [⟨unit.nextHandle, work, now, unit.clock.cycleAtOrAfter now, none⟩]
  { unit with
    queue := queue
    nextHandle := unit.nextHandle + 1
    counters := { unit.counters with
      submitted := unit.counters.submitted + 1
      highWater := max unit.counters.highWater queue.length } }

def submit (unit : Coprocessor) (now : Nat) (work : Offload) :
    Except Backpressure Nat × Coprocessor × Effects :=
  if unit.capacity ≤ unit.occupancy then
    (.error ⟨unit.capacity⟩,
      { unit with counters := { unit.counters with rejected := unit.counters.rejected + 1 } }, .none)
  else
    let ready := unit.clock.cycleAtOrAfter now
    let accepted := unit.accept now work
    let line := Effects.lineIf unit.logsOffloads {
      severity := .debug
      message := "offload accepted"
      fields := [⟨"coproc", unit.name, false⟩, ⟨"handle", handleName unit.nextHandle, false⟩,
        .ofNat "inst_id" work.instruction, .ofNat "ready_cycle" ready,
        .ofNat "occupancy" accepted.occupancy] }
    match unit.clock.tick? ready with
    | some edge =>
      let requested := accepted.requestEdge edge
      (.ok unit.nextHandle, requested.1, line ++ requested.2)
    | none => (.ok unit.nextHandle, accepted, line)

def result (unit : Coprocessor) (job : Job) : OffloadResult where
  handle := job.handle
  instruction := job.work.instruction
  payload := job.work.payload
  submittedAt := job.submittedAt
  completedAt := unit.clock.tickOfCycle (job.finishCycle.getD 0)

def completionLine (unit : Coprocessor) (job : Job) : Effects :=
  .lineIf unit.logsOffloads {
    severity := .trace
    message := "offload complete"
    fields := [⟨"coproc", unit.name, false⟩, ⟨"handle", handleName job.handle, false⟩,
      .ofNat "completed_at" (unit.result job).completedAt] }

def countExecuted (unit : Coprocessor) (jobs : Nat) : Coprocessor :=
  { unit with counters := { unit.counters with executed := unit.counters.executed + jobs } }

def finishedJob? (unit : Coprocessor) (handle now : Nat) : Option Job :=
  unit.queue.find? fun job =>
    job.handle = handle && (job.finishCycle.bind unit.clock.tick?).any (· ≤ now)

/-- Hands over the result of an offload that has finished by `now`, once. It may still be in the
    queue if the edge of this unit at `now` has not come yet. -/
def poll? (unit : Coprocessor) (handle now : Nat) : Option (OffloadResult × Coprocessor × Effects) :=
  match unit.done.find? (·.handle = handle) with
  | some result =>
    if result.completedAt ≤ now then
      some (result, { unit with done := unit.done.eraseP (·.handle = handle) }, .none)
    else none
  | none =>
    (unit.finishedJob? handle now).map fun job =>
      (unit.result job,
        { unit with queue := unit.queue.eraseP (·.handle = handle) }.countExecuted 1,
        unit.completionLine job)

def retire (unit : Coprocessor) (cycle : Nat) : Coprocessor × Effects :=
  let finished := unit.queue.filter (·.finishedBy cycle)
  ({ unit with
      queue := unit.queue.filter (!·.finishedBy cycle)
      done := unit.done ++ finished.map unit.result }.countExecuted finished.length,
    finished.foldl (fun effects job => effects ++ unit.completionLine job) .none)

/-- Starts waiting jobs from the front while fewer than `width` execute, and says how long each of
    them takes. Behind a job that is not ready none is. -/
def start (width cycle : Nat) : Nat → List Job → List Job × List Nat
  | _, [] => ([], [])
  | executing, job :: rest =>
    if width ≤ executing then (job :: rest, [])
    else if job.isExecuting then
      let others := start width cycle executing rest
      (job :: others.1, others.2)
    else if cycle < job.readyCycle then (job :: rest, [])
    else
      let others := start width cycle (executing + 1) rest
      ({ job with finishCycle := some (addUpToHorizon cycle job.duration) } :: others.1,
        job.duration :: others.2)

def issueJobs (unit : Coprocessor) (cycle : Nat) : Coprocessor × Effects :=
  let started := start unit.issueWidth cycle unit.executing unit.queue
  ({ unit with
      queue := started.1
      counters := { unit.counters with
        busyCycles := started.2.foldl addUpToHorizon unit.counters.busyCycles } },
    { records := started.2.map fun duration => ⟨unit.name, .executionCycles, duration⟩ })

def nextActivity? (unit : Coprocessor) (cycle : Nat) : Option Nat :=
  let hasSlot := unit.executing < unit.issueWidth
  (unit.queue.filterMap fun job =>
    match job.finishCycle with
    | some finish => some finish
    | none => if hasSlot then some (max job.readyCycle (addUpToHorizon cycle 1)) else none).min?

def nextEdge? (unit : Coprocessor) (now : Nat) : Option Nat :=
  ((unit.nextActivity? (unit.clock.cycleAt now)).bind unit.clock.tick?).filter (now < ·)

/-- A clock edge. One that was asked for before an earlier one does nothing. -/
def edge (unit : Coprocessor) (now : Nat) : Coprocessor × Effects :=
  if unit.nextEdge ≠ some now then (unit, .none)
  else
    let cycle := unit.clock.cycleAt now
    let retired := { unit with nextEdge := none }.retire cycle
    let issued := retired.1.issueJobs cycle
    let requested := match issued.1.nextEdge? now with
      | some tick => issued.1.requestEdge tick
      | none => (issued.1, .none)
    (requested.1, retired.2 ++ issued.2 ++ requested.2)

def report (unit : Coprocessor) : List Record :=
  let counters := unit.counters
  [⟨unit.name, .offloadsExecuted, counters.executed⟩,
    ⟨unit.name, .offloadsAccepted, counters.submitted⟩,
    ⟨unit.name, .offloadsRejected, counters.rejected⟩,
    ⟨unit.name, .busyCycles, counters.busyCycles⟩,
    ⟨unit.name, .queueHighWater, counters.highWater⟩]

end Coprocessor

end CoreTiming
