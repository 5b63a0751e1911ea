import CoreTiming.Proofs.Json.Members
import CoreTiming.Session.Call

namespace CoreTiming

open Json (put)

namespace Session

def World.settle {α : Type} (world : World) : Except SessionError (Session × α) → Except SessionError α × World
  | .ok (session, value) => (.ok value, { world with session := session })
  | .error error => (.error error, world)

def Setter.apply (session : Session) : Setter → Except SessionError Session
  | .option key value => session.setOption key value
  | .level highest => session.setStatisticLevel highest
  | .parameters target value => session.merge target value

namespace Method

variable {α β : Type}

theorem perform_bind (first : Method α) (next : α → Method β) (world : World) :
    (first >>= next).perform world = match first.perform world with
      | (.ok value, after) => (next value).perform after
      | (.error error, after) => (.error error, after) := by
  unfold perform
  rw [ExceptT.run_bind, StateT.run_bind]
  obtain ⟨result, after⟩ := (ExceptT.run first).run world
  cases result <;> rfl

theorem perform_ofExcept (result : Except SessionError α) (world : World) :
    (ofExcept result : Method α).perform world = (result, world) := by
  cases result <;> rfl

theorem perform_settings (world : World) : settings.perform world = (world.session.settings, world) :=
  perform_ofExcept world.session.settings world

/-- A section that is opened is empty unless it was an object. To set it makes up for the opening. -/
theorem exists_perform_openSection (target : Section) (settings : List (Json.Text × Json.Value))
    (environment : Environment) : ∃ opened,
      (openSection target).perform ⟨.building settings, environment⟩ =
        (.ok (members settings target.name), ⟨.building opened, environment⟩) ∧
      ∀ value, put (some target.name) value opened = put (some target.name) value settings := by
  unfold openSection members
  rw [perform_bind, perform_settings]
  dsimp only [Session.settings]
  cases settings.lookup (some target.name) with
  | none => exact ⟨_, rfl, fun _ => Json.put_put ..⟩
  | some value =>
    cases value with
    | object members => exact ⟨settings, rfl, fun _ => rfl⟩
    | _ => exact ⟨_, rfl, fun _ => Json.put_put ..⟩

theorem perform_extend (target : Section) (new : List (Json.Text × Json.Value)) (world : World) :
    (extend target new).perform world = world.settle ((·, ()) <$> world.session.extend target new) := by
  obtain ⟨session, environment⟩ := world
  cases session with
  | finished sim => rfl
  | flushed => rfl
  | building settings =>
    -- The section is opened in place first; what is put there last hides it.
    obtain ⟨opened, opens, replaces⟩ := exists_perform_openSection target settings environment
    rw [extend, perform_bind, opens]
    show (Except.ok (), World.mk (.building (put _ _ opened)) environment) = _
    rw [replaces]
    rfl

theorem perform_setOption (key : String) (value : Json.Value) (world : World) :
    (setOption key value).perform world = world.settle ((·, ()) <$> world.session.setOption key value) := by
  rw [setOption, perform_bind, perform_ofExcept, Session.setOption]
  cases exchanged value with
  | error error => rfl
  | ok value => exact perform_extend ..

theorem perform_setStatisticLevel (level : Nat) (world : World) : (setStatisticLevel level).perform world =
    world.settle ((·, ()) <$> world.session.setStatisticLevel level) := by
  obtain ⟨session, environment⟩ := world
  cases session <;> rfl

theorem perform_merge (target : Section) (parameters : Json.Value) (world : World) :
    (merge target parameters).perform world =
      world.settle ((·, ()) <$> world.session.merge target parameters) := by
  rw [merge, perform_bind, perform_ofExcept, Session.merge]
  cases exchanged parameters with
  | error error => rfl
  | ok value =>
    cases value with
    | object new => exact perform_extend ..
    | _ => rfl

theorem perform_run (world : World) :
    run.perform world = world.settle (world.session.run world.environment) := by
  rw [run, perform_bind, perform_settings, Session.run]
  cases world.session.settings with
  | error error => rfl
  | ok settings =>
    show perform (_ >>= _) world = World.settle world (readable (Config.ofValue? (.object settings)) >>= _)
    rw [perform_bind, perform_ofExcept]
    cases readable (Config.ofValue? (.object settings)) with
    | error error => rfl
    | ok config =>
      show perform (ofExcept (launch world.environment config) >>= _) world =
        world.settle (launch world.environment config)
      rw [perform_bind, perform_ofExcept]
      cases launch world.environment config <;> rfl

theorem perform_statistics (format : String) (world : World) :
    (statistics format).perform world = world.settle (world.session.statistics format) := by
  rw [statistics, perform_bind, perform_ofExcept, Session.statistics]
  obtain ⟨session, environment⟩ := world
  cases readFormat format with
  | error error => rfl
  | ok style => cases session <;> rfl

theorem perform_writeStatistics (path format : String) (world : World) :
    (writeStatistics path format).perform world =
      match world.session.writeStatistics world.environment.files path format with
      | (session, files, result) => (result, ⟨session, { world.environment with files := files }⟩) := by
  rw [writeStatistics, perform_bind, perform_statistics, Session.writeStatistics]
  cases world.session.statistics format with
  | error error => rfl
  | ok taken =>
    obtain ⟨session, text⟩ := taken
    show perform (do
      let files ← ofExcept ((world.environment.files.write path text).mapError (.unwritable path))
      set { World.mk session world.environment with environment.files := files }) _ = _
    rw [perform_bind, perform_ofExcept]
    dsimp only
    cases world.environment.files.write path text <;> rfl

end Method

theorem Setter.perform_method (setter : Setter) (world : World) :
    setter.method.perform world = world.settle ((·, ()) <$> setter.apply world.session) := by
  cases setter with
  | option key value => exact Method.perform_setOption key value world
  | level highest => exact Method.perform_setStatisticLevel highest world
  | parameters target value => exact Method.perform_merge target value world

end Session

end CoreTiming
