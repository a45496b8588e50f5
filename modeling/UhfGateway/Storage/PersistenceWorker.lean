/-
The worker that stores what has been measured (`storage/persistence_runtime`).

One thread takes the frames from the snapshot store, feeds the event detector, and has the
frame store, the event store and the cleaner do their work; all of these are behind its calls,
but the detector, which is its own.  `body` is one round of its loop, or one of the loop in
which it sleeps until the next round.

* `PersistenceWorker.body_careful` — in a round nothing is saved but right after the cleaner has
  accepted writes;
* `PersistenceWorker.Run.accepted` — and so in every run.
-/
import Mathlib
import UhfGateway.Config.Values
import UhfGateway.Effects.History
import UhfGateway.Storage.EventDetector
import UhfGateway.Storage.StorageCleaner

namespace Uhf.Storage

open Acquisition Effects

/-! ### Logging -/

inductive LogLevel
  | info | error | critical
  deriving DecidableEq, Repr

inductive LogComponent
  | config | storage
  deriving DecidableEq, Repr

/-- What `Logger::log` is given. -/
structure LogEntry where
  level : LogLevel
  component : LogComponent
  eventCode : Bytes
  message : Bytes
  fields : List (Bytes × Bytes) := []

/-! ### Calls -/

inductive WorkerCall
  | stopRequested
  | steadyNow
  | systemNow
  /-- The snapshot of the configuration store. -/
  | configured
  | servingView
  /-- `StorageCleaner::run`; no answer if an exception leaves it. -/
  | runCleaner (now : Nanoseconds)
  | updateCleaner (options : CleanerOptions)
  | acceptingWrites
  /-- `FrameStore::save`. -/
  | saveFrame (snapshot : PublishedSnapshot) (timestamp : Nanoseconds)
  /-- `EventBundleStore::save`. -/
  | saveEvent (bundle : EventBundle)
  | log (entry : LogEntry)
  | sleep (duration : Nanoseconds)

@[reducible] def workerCalls : Interface where
  Op := WorkerCall
  Answer
    | .stopRequested | .acceptingWrites | .saveFrame _ _ | .saveEvent _ => Bool
    | .steadyNow | .systemNow => Nanoseconds
    | .configured => Config.Snapshot
    | .servingView => ServingView
    | .runCleaner _ => Option CleanupResult
    | .updateCleaner _ | .log _ | .sleep _ => Unit

abbrev WorkerProg := Prog workerCalls

/-- An entry for the log, and then the rest. -/
def logged {α : Type} (entry : LogEntry) (rest : WorkerProg α) : WorkerProg α :=
  .call (I := workerCalls) (.log entry) fun _ => rest

/-! ### The worker -/

/-- The periods are in seconds. -/
structure PersistenceOptions where
  /-- There is a configuration store. -/
  configStore : Bool := false
  periodicPeriod : Int := 300
  cleanupPeriod : Int := 3600
  cleanerOptions : CleanerOptions := {}
  eventOptions : EventOptions := {}

structure PersistenceStats where
  lowWatermarkActive : Bool := false
  writesPaused : Bool := false
  cleanupFailed : Bool := false
  savedFrameCount : ℕ := 0
  savedEventCount : ℕ := 0
  droppedFrameCount : ℕ := 0
  droppedEventCount : ℕ := 0

/-- The worker, with the local variables of its thread. -/
structure PersistenceWorker where
  options : PersistenceOptions
  eventDetector : EventDetector
  stats : PersistenceStats := {}
  alarmActive : Bool := false
  appliedConfigVersion : UInt64 := 0
  lastGeneration : UInt64 := 0
  lastPeriodicSave : Option Nanoseconds := none
  lastPeriodicGeneration : UInt64 := 0
  droppedGeneration : UInt64 := 0
  cleanupInterval : Int
  nextCleanup : Nanoseconds
  /-- The end of the sleep that the thread is in. -/
  sleepUntil : Option Nanoseconds := none

def kWorkerInterval : Nanoseconds := milliseconds 100

namespace PersistenceWorker

/-- The thread as it enters its loop. -/
def entering (options : PersistenceOptions) (now : Nanoseconds) : PersistenceWorker where
  options := options
  eventDetector := { options := options.eventOptions }
  cleanupInterval := max options.cleanupPeriod 0
  nextCleanup := now

/-- The options once a configuration has been applied to them. -/
def configuredOptions (options : PersistenceOptions) (values : Config.Values) :
    PersistenceOptions :=
  { options with
    periodicPeriod := values.storagePeriodSeconds.toNat
    cleanerOptions := { options.cleanerOptions with
      retention := (24 * values.storageRetentionDays).toNat * 3600
      minFreeBytes := values.storageMinFreeBytes }
    eventOptions := { options.eventOptions with
      strongTriggerDbm := values.storageEventThresholdDbm
      strongRearmDbm := values.storageEventRearmDbm
      suddenDeltaDb := values.storageEventDeltaDb.toInt32
      mergeWindow := seconds values.storageEventMergeSeconds.toNat } }

def applyRuntimeConfiguration (w : PersistenceWorker) : WorkerProg PersistenceWorker :=
  if !w.options.configStore then .done w
  else
    .call (I := workerCalls) .configured fun (configured : Config.Snapshot) =>
      if configured.version = w.appliedConfigVersion then .done w
      else
        let options := configuredOptions w.options configured.values
        .call (I := workerCalls) (.updateCleaner options.cleanerOptions) fun _ =>
          logged
            { level := .info
              component := .config
              eventCode := ascii "storage.configuration.reloaded"
              message := ascii "hot-reloadable storage settings applied"
              fields := [(ascii "version", decimal configured.version.toNat)] }
            (.done { w with
              options := options
              eventDetector := w.eventDetector.updateOptions options.eventOptions
              appliedConfigVersion := configured.version })

def updateCleanupState (w : PersistenceWorker) (result : CleanupResult) :
    WorkerProg PersistenceWorker :=
  let w := { w with stats := { w.stats with
    lowWatermarkActive := result.lowWatermarkActive
    writesPaused := result.writesPaused
    cleanupFailed := result.deletionFailed } }
  if result.deletionFailed then
    logged
      { level := .critical
        component := .storage
        eventCode := ascii "cleanup.failed"
        message := ascii "storage cleanup failed; new writes may be paused" }
      (.done w)
  else .done w

/-- The cleaner's turn, if it has come; nothing if an exception ends the thread. -/
def cleanUp (w : PersistenceWorker) (now nowUtc : Nanoseconds) :
    WorkerProg (Option PersistenceWorker) :=
  if w.nextCleanup ≤ now then
    .call (I := workerCalls) (.runCleaner nowUtc) fun (result : Option CleanupResult) =>
      match result with
      | none => .done none
      | some result =>
        updateCleanupState w result >>= fun w =>
          .done (some { w with
            nextCleanup := now + seconds (if w.cleanupInterval = 0 then 1 else w.cleanupInterval) })
  else .done (some w)

/-- A frame that is not stored is counted once. -/
def dropFrame (w : PersistenceWorker) (generation : UInt64) : PersistenceWorker :=
  if w.droppedGeneration ≠ generation then
    { w with
      droppedGeneration := generation
      stats := { w.stats with droppedFrameCount := w.stats.droppedFrameCount + 1 } }
  else w

/-- The frame whose period has come. -/
def savePeriodic (w : PersistenceWorker) (snapshot : PublishedSnapshot)
    (now nowUtc : Nanoseconds) : WorkerProg PersistenceWorker :=
  .call (I := workerCalls) .acceptingWrites fun (accepting : Bool) =>
    if !accepting then
      logged
        { level := .critical
          component := .storage
          eventCode := ascii "frame.dropped"
          message := ascii "periodic frame dropped while storage writes are paused" }
        (.done (w.dropFrame snapshot.generation))
    else
      .call (I := workerCalls) (.saveFrame snapshot nowUtc) fun (saved : Bool) =>
        if saved then
          .done { w with
            lastPeriodicSave := some now
            lastPeriodicGeneration := snapshot.generation
            droppedGeneration := 0
            stats := { w.stats with savedFrameCount := w.stats.savedFrameCount + 1 } }
        else
          logged
            { level := .error
              component := .storage
              eventCode := ascii "frame.save_failed"
              message := ascii "unable to persist periodic measurement frame" }
            (.done (w.dropFrame snapshot.generation))

/-- The period of the frames has elapsed. -/
def periodElapsed (w : PersistenceWorker) (now : Nanoseconds) : Bool :=
  match w.lastPeriodicSave with
  | none => true
  | some last =>
    decide (w.options.periodicPeriod ≤ 0) || decide (last + seconds w.options.periodicPeriod ≤ now)

/-- What the snapshot store serves, if it is new. -/
def observeView (w : PersistenceWorker) (view : ServingView) (now nowUtc : Nanoseconds) :
    WorkerProg PersistenceWorker :=
  match view.snapshot with
  | none => .done w
  | some snapshot =>
    if snapshot.generation ≠ 0 ∧ w.lastGeneration < snapshot.generation then
      let detector := w.eventDetector.observe snapshot now
        (decide (view.status.availability = .fresh)) nowUtc
      let w := { w with
        lastGeneration := snapshot.generation
        eventDetector := detector
        alarmActive := !detector.strongArmed }
      if w.periodElapsed now = true ∧ snapshot.generation ≠ w.lastPeriodicGeneration then
        w.savePeriodic snapshot now nowUtc
      else .done w
    else .done w

def saveCompletedEvents (w : PersistenceWorker) : List EventBundle → WorkerProg PersistenceWorker
  | [] => .done w
  | bundle :: bundles =>
    .call (I := workerCalls) .acceptingWrites fun (accepting : Bool) =>
      let dropped :=
        { w with stats := { w.stats with droppedEventCount := w.stats.droppedEventCount + 1 } }
      if !accepting then
        logged
          { level := .critical
            component := .storage
            eventCode := ascii "event.dropped"
            message := ascii "completed event dropped while storage writes are paused" }
          (dropped.saveCompletedEvents bundles)
      else
        .call (I := workerCalls) (.saveEvent bundle) fun (saved : Bool) =>
          if !saved then
            logged
              { level := .error
                component := .storage
                eventCode := ascii "event.save_failed"
                message := ascii "unable to persist completed event bundle" }
              (dropped.saveCompletedEvents bundles)
          else
            let saved :=
              { w with stats := { w.stats with savedEventCount := w.stats.savedEventCount + 1 } }
            saved.saveCompletedEvents bundles

/-- One round of the sleep that ends at the given time. -/
def sleeping (w : PersistenceWorker) (sleepUntil : Nanoseconds) :
    WorkerProg (Option PersistenceWorker) :=
  .call (I := workerCalls) .stopRequested fun (stop : Bool) =>
    if stop then .done (some { w with sleepUntil := none })
    else
      .call (I := workerCalls) .steadyNow fun (now : Nanoseconds) =>
        if sleepUntil - now ≤ 0 then .done (some { w with sleepUntil := none })
        else
          .call (I := workerCalls) (.sleep (min (sleepUntil - now) (milliseconds 25))) fun _ =>
            .done (some w)

/-- One round of work; nothing is left of the thread once it has been stopped. -/
def working (w : PersistenceWorker) : WorkerProg (Option PersistenceWorker) :=
  .call (I := workerCalls) .stopRequested fun (stop : Bool) =>
    if stop then .done none
    else
      .call (I := workerCalls) .steadyNow fun (now : Nanoseconds) =>
        w.applyRuntimeConfiguration >>= fun w =>
          .call (I := workerCalls) .systemNow fun (nowUtc : Nanoseconds) =>
            w.cleanUp now nowUtc >>= fun cleaned =>
              match cleaned with
              | none => .done none
              | some w =>
                .call (I := workerCalls) .servingView fun (view : ServingView) =>
                  w.observeView view now nowUtc >>= fun w =>
                    let (detector, bundles) := w.eventDetector.advance now
                    { w with eventDetector := detector }.saveCompletedEvents bundles >>= fun w =>
                      .call (I := workerCalls) .steadyNow fun (later : Nanoseconds) =>
                        .done (some { w with sleepUntil := some (later + kWorkerInterval) })

def body (w : PersistenceWorker) : WorkerProg (Option PersistenceWorker) :=
  match w.sleepUntil with
  | some sleepUntil => w.sleeping sleepUntil
  | none => w.working

end PersistenceWorker

/-! ### What the worker saves -/

def Saves : WorkerCall → Prop
  | .saveFrame _ _ | .saveEvent _ => True
  | _ => False

/-- Nothing is saved but right after writes have been accepted. -/
def Accepted (before : Trace workerCalls) (call : WorkerCall) : Prop :=
  Saves call →
    ∃ earlier, before = earlier ++ [(⟨.acceptingWrites, true⟩ : Act workerCalls)]

/-- The program saves nothing without asking, whatever it follows. -/
abbrev Careful {α : Type} (p : WorkerProg α) : Prop :=
  ∀ before, p.Heeds Accepted (fun _ _ => True) before

section Careful

variable {α β : Type}

theorem careful_done (a : α) : Careful (.done a : WorkerProg α) := fun _ => trivial

theorem careful_call {o : WorkerCall} {k : workerCalls.Answer o → WorkerProg α} (h : ¬ Saves o)
    (hk : ∀ a, Careful (k a)) : Careful (.call (I := workerCalls) o k) :=
  fun before => ⟨fun hsaves => absurd hsaves h, fun a => hk a (before ++ [⟨o, a⟩])⟩

theorem careful_bind {p : WorkerProg α} {f : α → WorkerProg β} (hp : Careful p)
    (hf : ∀ a, Careful (f a)) : Careful (p >>= f) := by
  intro before
  refine Prog.heeds_bind ((hp before).mono ?_)
  intro a done _
  exact hf a done

theorem careful_ite {c : Prop} [Decidable c] {p q : WorkerProg α} (hp : c → Careful p)
    (hq : ¬ c → Careful q) : Careful (if c then p else q) := by
  split_ifs with hc
  · exact hp hc
  · exact hq hc

theorem careful_logged {entry : LogEntry} {rest : WorkerProg α} (h : Careful rest) :
    Careful (logged entry rest) := careful_call (fun hsaves => hsaves) fun _ => h

/-- A save that is only made if writes are accepted. -/
theorem careful_save {o : WorkerCall} {k : workerCalls.Answer o → WorkerProg α}
    {refused : WorkerProg α} (hrefused : Careful refused) (hk : ∀ a, Careful (k a)) :
    Careful (.call (I := workerCalls) .acceptingWrites fun (accepting : Bool) =>
      if !accepting then refused else .call (I := workerCalls) o k) := by
  refine fun before => ⟨fun hsaves => hsaves.elim, fun (accepting : Bool) => ?_⟩
  cases accepting with
  | false => exact hrefused _
  | true => exact ⟨fun _ => ⟨before, rfl⟩, fun a => hk a _⟩

end Careful

namespace PersistenceWorker

theorem applyRuntimeConfiguration_careful (w : PersistenceWorker) :
    Careful w.applyRuntimeConfiguration := by
  refine careful_ite (fun _ => careful_done _) fun _ => ?_
  refine careful_call (fun hsaves => hsaves) fun (configured : Config.Snapshot) => ?_
  refine careful_ite (fun _ => careful_done _) fun _ => ?_
  refine careful_call (fun hsaves => hsaves) fun _ => ?_
  exact careful_logged (careful_done _)

theorem cleanUp_careful (w : PersistenceWorker) (now nowUtc : Nanoseconds) :
    Careful (w.cleanUp now nowUtc) := by
  refine careful_ite (fun _ => ?_) fun _ => careful_done _
  refine careful_call (fun hsaves => hsaves) fun (result : Option CleanupResult) => ?_
  cases result with
  | none => exact careful_done _
  | some result =>
    refine careful_bind ?_ fun _ => careful_done _
    exact careful_ite (fun _ => careful_logged (careful_done _)) fun _ => careful_done _

theorem savePeriodic_careful (w : PersistenceWorker) (snapshot : PublishedSnapshot)
    (now nowUtc : Nanoseconds) : Careful (w.savePeriodic snapshot now nowUtc) := by
  refine careful_save (careful_logged (careful_done _)) fun (saved : Bool) => ?_
  exact careful_ite (fun _ => careful_done _) fun _ => careful_logged (careful_done _)

theorem observeView_careful (w : PersistenceWorker) (view : ServingView)
    (now nowUtc : Nanoseconds) : Careful (w.observeView view now nowUtc) := by
  rw [observeView]
  cases view.snapshot with
  | none => exact careful_done _
  | some snapshot =>
    refine careful_ite (fun _ => ?_) fun _ => careful_done _
    exact careful_ite (fun _ => savePeriodic_careful _ _ _ _) fun _ => careful_done _

theorem saveCompletedEvents_careful (w : PersistenceWorker) (bundles : List EventBundle) :
    Careful (w.saveCompletedEvents bundles) := by
  induction bundles generalizing w with
  | nil => exact careful_done _
  | cons bundle bundles ih =>
    refine careful_save (careful_logged (ih _)) fun (saved : Bool) => ?_
    exact careful_ite (fun _ => careful_logged (ih _)) fun _ => ih _

theorem sleeping_careful (w : PersistenceWorker) (sleepUntil : Nanoseconds) :
    Careful (w.sleeping sleepUntil) := by
  refine careful_call (fun hsaves => hsaves) fun (stop : Bool) => ?_
  refine careful_ite (fun _ => careful_done _) fun _ => ?_
  refine careful_call (fun hsaves => hsaves) fun (now : Nanoseconds) => ?_
  refine careful_ite (fun _ => careful_done _) fun _ => ?_
  exact careful_call (fun hsaves => hsaves) fun _ => careful_done _

theorem working_careful (w : PersistenceWorker) : Careful w.working := by
  refine careful_call (fun hsaves => hsaves) fun (stop : Bool) => ?_
  refine careful_ite (fun _ => careful_done _) fun _ => ?_
  refine careful_call (fun hsaves => hsaves) fun (now : Nanoseconds) => ?_
  refine careful_bind w.applyRuntimeConfiguration_careful fun w => ?_
  refine careful_call (fun hsaves => hsaves) fun (nowUtc : Nanoseconds) => ?_
  refine careful_bind (w.cleanUp_careful now nowUtc) fun cleaned => ?_
  cases cleaned with
  | none => exact careful_done _
  | some w =>
    refine careful_call (fun hsaves => hsaves) fun (view : ServingView) => ?_
    refine careful_bind (w.observeView_careful view now nowUtc) fun w => ?_
    refine careful_bind (saveCompletedEvents_careful _ _) fun w => ?_
    exact careful_call (fun hsaves => hsaves) fun _ => careful_done _

theorem body_careful (w : PersistenceWorker) : Careful w.body := by
  rw [body]
  cases w.sleepUntil with
  | none => exact w.working_careful
  | some sleepUntil => exact w.sleeping_careful sleepUntil

/-- What the thread has done after some rounds, and the worker it goes on with. -/
abbrev Run (start : PersistenceWorker) : Trace workerCalls → Option PersistenceWorker → Prop :=
  Prog.Loops body (fun _ _ => True) start

/-- In every run the worker saves nothing but right after the cleaner has accepted writes. -/
theorem Run.accepted {start : PersistenceWorker} {trace before after : Trace workerCalls}
    {w : Option PersistenceWorker} {act : Act workerCalls} (h : Run start trace w)
    (htrace : trace = before ++ act :: after) : Accepted before act.op := by
  have hall := h.invariant
    (fun trace _ => ∀ before act after, trace = before ++ act :: after → Accepted before act.op)
    (by simp) ?_
  · exact hall before act after htrace
  · intro trace further w r ih exec _ before act after heq
    rcases List.append_eq_append_iff.mp heq with ⟨first, rfl, hrest⟩ | ⟨rest, rfl, hact⟩
    · exact (w.body_careful trace).allowed exec hrest
    · cases rest with
      | nil =>
        rw [List.nil_append] at hact
        have hfirst := (w.body_careful (before ++ [])).allowed exec
          (show further = [] ++ act :: after from hact.symm)
        simpa using hfirst
      | cons act' rest =>
        obtain ⟨rfl, -⟩ := List.cons.inj hact
        exact ih before act rest rfl

end PersistenceWorker

end Uhf.Storage
