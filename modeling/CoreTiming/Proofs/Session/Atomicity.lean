import CoreTiming.Proofs.Config.Cores
import CoreTiming.Proofs.Session.Calls

namespace CoreTiming

namespace Session

variable {world after : World} {error : SessionError}

theorem World.eq_of_settle_eq_error {α : Type} {result : Except SessionError (Session × α)}
    (failed : world.settle result = (.error error, after)) : after = world := by
  cases result with
  | ok settled => cases failed
  | error other =>
    cases failed
    rfl

theorem Method.perform_eq_error_of_map {α β : Type} {method : Method α} {f : α → β}
    (failed : (do return f (← method) : Method β).perform world = (.error error, after)) :
    method.perform world = (.error error, after) := by
  rw [perform_bind] at failed
  cases performed : method.perform world with
  | mk result left =>
    rw [performed] at failed
    cases result with
    | ok value => cases failed
    | error other =>
      cases failed
      rfl

theorem exists_of_statistics_eq_ok {session next : Session} {format text : String}
    (taken : session.statistics format = .ok (next, text)) : ∃ sim style, session = .finished sim ∧
      readFormat format = .ok style ∧ next = .flushed ∧ text = sim.statistics style := by
  obtain ⟨style, known, given⟩ := exists_of_bind_eq_ok taken
  cases session with
  | building settings => cases given
  | flushed => cases given
  | finished sim =>
    cases given
    exact ⟨sim, style, rfl, known, rfl, rfl⟩

theorem statistics_of_finished {sim : Simulator} {format : String} {style : StatisticFormat}
    (known : readFormat format = .ok style) :
    (Session.finished sim).statistics format = .ok (.flushed, sim.statistics style) := by
  rw [statistics, known]
  rfl

namespace Call

/-- A finished session is asked to write its statistics, in a known format, to a file that cannot be written. -/
def Loses (call : Call) (world : World) : Prop :=
  ∃ path format style sim fault, call = .write path format ∧ readFormat format = .ok style ∧
    world.session = .finished sim ∧ world.environment.files.write path (sim.statistics style) = .error fault

theorem perform_of_loses {call : Call} (loses : call.Loses world) : ∃ path fault,
    call.method.perform world = (.error (.unwritable path fault), { world with session := .flushed }) := by
  obtain ⟨path, format, style, sim, fault, rfl, known, ended, stuck⟩ := loses
  refine ⟨path, fault, ?_⟩
  show Method.perform (_ >>= _) world = _
  rw [Method.perform_bind, Method.perform_writeStatistics, writeStatistics, ended, statistics_of_finished known]
  simp only [stuck]

theorem eq_or_loses {call : Call} (failed : call.method.perform world = (.error error, after)) :
    after = world ∨ call.Loses world := by
  cases call with
  | set setter =>
    have stuck := Method.perform_eq_error_of_map (f := fun _ => Answer.done) failed
    exact .inl (World.eq_of_settle_eq_error ((Setter.perform_method setter world).symm.trans stuck))
  | run =>
    have stuck := Method.perform_eq_error_of_map failed
    exact .inl (World.eq_of_settle_eq_error ((Method.perform_run world).symm.trans stuck))
  | statistics format =>
    have stuck := Method.perform_eq_error_of_map failed
    exact .inl (World.eq_of_settle_eq_error ((Method.perform_statistics format world).symm.trans stuck))
  | write path format =>
    have stuck := Method.perform_eq_error_of_map (f := fun _ => Answer.done) failed
    rw [Method.perform_writeStatistics, writeStatistics] at stuck
    cases taken : world.session.statistics format with
    | error reason =>
      rw [taken] at stuck
      cases stuck
      exact .inl rfl
    | ok result =>
      obtain ⟨next, text⟩ := result
      obtain ⟨sim, style, ended, known, rfl, rfl⟩ := exists_of_statistics_eq_ok taken
      cases written : world.environment.files.write path (sim.statistics style) with
      | error fault => exact .inr ⟨path, format, style, sim, fault, rfl, known, ended, written⟩
      | ok files =>
        rw [taken] at stuck
        simp only [written] at stuck
        cases stuck

end Call

namespace Request

def Loses (request : Request) (world : World) : Prop :=
  ∃ call, request.call = .ok call ∧ call.Loses world

theorem answers_cons (request : Request) (later : List Request) (world : World) :
    answers (request :: later) world = (request.perform world).1 :: answers later (request.perform world).2 := rfl

variable {request : Request} {fault : CallError}

theorem perform_of_call {call : Call} (called : request.call = .ok call) : request.perform world =
    ((call.method.perform world).1.mapError .session, (call.method.perform world).2) := by
  rw [perform, called]

theorem eq_or_loses (failed : request.perform world = (.error fault, after)) :
    after = world ∨ request.Loses world := by
  cases called : request.call with
  | error reason =>
    rw [perform, called] at failed
    cases failed
    exact .inl rfl
  | ok call =>
    rw [perform_of_call called] at failed
    cases performed : call.method.perform world with
    | mk result left =>
      rw [performed] at failed
      cases result with
      | ok answer => cases failed
      | error error =>
        cases failed
        exact (Call.eq_or_loses performed).imp_right fun loses => ⟨call, called, loses⟩

theorem perform_of_loses (loses : request.Loses world) : ∃ path fault, request.perform world =
    (.error (.session (.unwritable path fault)), { world with session := .flushed }) := by
  obtain ⟨call, called, loses⟩ := loses
  obtain ⟨path, fault, performed⟩ := Call.perform_of_loses loses
  refine ⟨path, fault, ?_⟩
  rw [perform_of_call called, performed]
  rfl

theorem perform_statistics_of_finished {format : String} {style : StatisticFormat} {sim : Simulator}
    (called : request.call = .ok (.statistics format)) (known : readFormat format = .ok style)
    (ended : world.session = .finished sim) :
    request.perform world = (.ok (.text (sim.statistics style)), { world with session := .flushed }) := by
  have performed : (Call.statistics format).method.perform world =
      (.ok (.text (sim.statistics style)), { world with session := .flushed }) := by
    rw [Call.method, Method.perform_bind, Method.perform_statistics, ended, statistics_of_finished known]
    rfl
  rw [perform_of_call called, performed]
  rfl

/-- A call that fails changes nothing, so the answers to later calls are those that they would have had: after a
    failed run its settings can be corrected, and a finished session still has its statistics. Only a call that
    could not write its file has lost them. -/
theorem failure_changes_nothing (failed : request.perform world = (.error fault, after)) :
    (¬ request.Loses world → after = world ∧
      (∀ later, answers (request :: later) world = .error fault :: answers later world) ∧
      ∀ (taking : Request) format style sim, taking.call = .ok (.statistics format) →
        readFormat format = .ok style → world.session = .finished sim →
        taking.perform after = (.ok (.text (sim.statistics style)), { world with session := .flushed })) ∧
    (request.Loses world → (∃ path reason, fault = .session (.unwritable path reason)) ∧
      after = { world with session := .flushed }) := by
  refine ⟨fun keeps => ?kept, fun loses => ?lost⟩
  case kept =>
    have same := (eq_or_loses failed).resolve_right keeps
    subst same
    refine ⟨rfl, fun later => ?_, fun taking format style sim called known ended => ?_⟩
    · rw [answers_cons, failed]
    · exact perform_statistics_of_finished called known ended
  case lost =>
    obtain ⟨path, reason, performed⟩ := perform_of_loses loses
    cases failed.symm.trans performed
    exact ⟨⟨path, reason, rfl⟩, rfl⟩

def idle : Simulator :=
  let spec : CoreSpec := {
    id := 0, isa := ⟨.w64, .general⟩, startAddress := 0, cost := ⟨1, 10⟩, costTable := none
    clock := .ofPeriod 1000, verbose := 0, faultPolicy := .halt }
  let platform : Platform := {
    timebase := 1000, stop := .drain, statisticLevel := 1, seed := 0, memorySize := 4096, cores := [spec]
    coprocessor := none }
  ((Simulator.ofStations platform []).register spec (.listed [])).run.1

theorem unknown_format_keeps_statistics :
    let world : World := ⟨.finished idle, { files := ⟨[]⟩ }⟩
    let request : Request := .statistics (some (some (.string "XML")))
    request.perform world = (.error (.session (.unknownFormat "xml")), world) ∧ ¬ request.Loses world ∧
      (Request.statistics none).perform world =
        (.ok (.text (idle.statistics .csv)), { world with session := .flushed }) := by
  intro world request
  have refused : request.perform world = (.error (.session (.unknownFormat "xml")), world) := rfl
  have keeps : ¬ request.Loses world := by
    rintro ⟨call, called, path, format, style, sim, fault, rfl, -⟩
    cases called
  obtain ⟨-, -, taken⟩ := (failure_changes_nothing refused).1 keeps
  exact ⟨refused, keeps, taken (.statistics none) "csv" .csv idle rfl rfl rfl⟩

/-- The directory is missing, so the statistics are neither written nor kept. -/
theorem unwritten_statistics_are_lost :
    let world : World := ⟨.finished idle, { files := ⟨[]⟩ }⟩
    let writing : Request := .write (some (.string "no/s.csv")) none
    let taking : Request := .statistics none
    answers [writing, taking] world =
      [.error (.session (.unwritable "no/s.csv" .notFound)), .error (.session .alreadyFlushed)] ∧
    answers [taking] world = [.ok (.text (idle.statistics .csv))] := by
  intro world writing taking
  exact ⟨rfl, rfl⟩

end Request

end Session

end CoreTiming
