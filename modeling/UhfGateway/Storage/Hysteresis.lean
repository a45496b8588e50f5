/-
When writes are paused and when they are taken up again (`StorageCleaner`, `PersistenceWorker`).

The cleaner is an object with two methods; whatever the probe, the scan and the removals
answer, its flag follows the two thresholds.  A scan fails if it reports so: a directory that
cannot be opened it takes for an empty one.

* `run_hysteresis` — one call;
* `storage_hysteresis` — every sequence of calls, and the worker.
-/
import UhfGateway.Effects.Monitor
import UhfGateway.Storage.OldestFirst
import UhfGateway.Storage.PersistenceWorker

namespace Uhf.Storage

open Acquisition Containers Domain Effects

/-! ### The cleaner -/

inductive CleanerRequest
  | run (now : Nanoseconds)
  | updateOptions (options : CleanerOptions)

/-- The cleaner by its methods. -/
def cleanerObject :
    Monitor cleanerCalls StorageCleaner CleanerRequest (Option CleanupResult) where
  method cleaner
    | .run now => cleaner.run now
    | .updateOptions options => .done (none, cleaner.updateOptions options)

/-- The law of the flag for one call: what it may do with it, and what it must have seen. -/
structure Hysteresis (before : StorageCleaner) (trace : Trace cleanerCalls)
    (after : StorageCleaner) : Prop where
  pauses : before.writesPaused = false → after.writesPaused = true →
    (∃ act ∈ trace, Failing act) ∨
      ∃ first scanned candidates done,
        trace = ⟨.probe, ⟨true, first⟩⟩ :: (scanned ++ removalActs done) ∧
          first.availableBytes < before.options.lowThreshold first ∧
          (scanCandidates before.dataRoot).Exec scanned (.found candidates) ∧
          removals trace = (deletable candidates).map Candidate.path ∧
          ∀ shown ∈ probes trace,
            shown.availableBytes < before.options.recoveryThreshold first
  resumes : before.writesPaused = true → after.writesPaused = false →
    (∀ act ∈ trace, ¬ Failing act) ∧
      ∃ first last, (probes trace).head? = some first ∧ (probes trace).getLast? = some last ∧
        before.options.recoveryThreshold first ≤ last.availableBytes
  ordered : ∀ space, before.options.lowThreshold space ≤ before.options.recoveryThreshold space

section Calls

variable {cleaner cleaner' : StorageCleaner} {trace : Trace cleanerCalls}

theorem probes_cleaned {scanned : Trace cleanerCalls} {scan : Scan} (space : DiskSpace)
    (hscan : (scanCandidates cleaner.dataRoot).Exec scanned scan) (done : List (Bytes × DiskSpace)) :
    probes (⟨.probe, ⟨true, space⟩⟩ :: (scanned ++ removalActs done)) =
      space :: done.map Prod.snd := by
  rw [← List.singleton_append, probes_append, probes_append, (scan_quiet hscan).2,
    probes_removalActs]
  rfl

theorem removals_cleaned {scanned : Trace cleanerCalls} {scan : Scan} (space : DiskSpace)
    (hscan : (scanCandidates cleaner.dataRoot).Exec scanned scan) (done : List (Bytes × DiskSpace)) :
    removals (⟨.probe, ⟨true, space⟩⟩ :: (scanned ++ removalActs done)) = done.map Prod.fst := by
  rw [← List.singleton_append, removals_append, removals_append, (scan_quiet hscan).1,
    removals_removalActs]
  rfl

theorem run_hysteresis {result : Option CleanupResult}
    (h : CleanerRun cleaner trace result cleaner') : Hysteresis cleaner trace cleaner' := by
  have hordered := lowThreshold_le_recoveryThreshold cleaner.options
  cases h with
  | failed hfailing =>
    exact ⟨fun _ _ => .inl hfailing, fun _ hresumed => (by cases hresumed), hordered⟩
  | @content space hcontent =>
    refine ⟨fun _ hpaused => (by cases hpaused), fun hpaused _ => ⟨?_, ?_⟩, hordered⟩
    · simp [Failing]
    · rw [StorageCleaner.threshold, if_pos hpaused] at hcontent
      exact ⟨space, space, rfl, rfl, hcontent⟩
  | thrown _ =>
    refine ⟨fun hbefore hafter => ?_, fun hbefore hafter => ?_, hordered⟩
    · rw [hbefore] at hafter
      cases hafter
    · rw [hbefore] at hafter
      cases hafter
  | @cleaned space last scanned candidates done hshort hscan hdrains =>
    refine ⟨fun hbefore hafter => .inr ?_, fun hbefore hafter => ⟨?_, ?_⟩, hordered⟩
    · -- the last level was not enough, so the queue has been worked off
      rw [StorageCleaner.threshold, hbefore, if_neg (by simp)] at hshort
      have hlast : enoughSpace (cleaner.options.recoveryThreshold space) last = false := by
        simpa using hafter
      obtain ⟨hfirst, hlevels⟩ := hdrains.levels_not_enough hlast
      refine ⟨space, scanned, candidates, done, rfl, hshort, hscan, ?_, ?_⟩
      · rw [removals_cleaned space hscan, hdrains.items_of_not_enough hlast]
      · rw [probes_cleaned space hscan, List.forall_mem_cons, List.forall_mem_map]
        refine ⟨enoughSpace_eq_false.mp hfirst, fun step hstep => ?_⟩
        exact enoughSpace_eq_false.mp (hlevels step hstep)
    · rw [List.forall_mem_cons, List.forall_mem_append]
      exact ⟨by simp [Failing], (scanCandidates_result hscan).2, not_failing_removalActs done⟩
    · have hlast : enoughSpace (cleaner.options.recoveryThreshold space) last = true := by
        simpa using hafter
      rw [enoughSpace, decide_eq_true_eq] at hlast
      refine ⟨space, last, ?_, ?_, hlast⟩
      · rw [probes_cleaned space hscan]
        rfl
      · rw [probes_cleaned space hscan, hdrains.getLast_levels]

theorem call_hysteresis {request : CleanerRequest} {result : Option CleanupResult}
    (h : (cleanerObject.method cleaner request).Exec trace (result, cleaner')) :
    Hysteresis cleaner trace cleaner' := by
  cases request with
  | run now => exact run_hysteresis (run_cases h)
  | updateOptions options =>
    obtain ⟨rfl, heq⟩ := Prog.exec_done.mp h
    obtain ⟨-, rfl⟩ := Prod.mk.inj heq
    refine ⟨fun hbefore hafter => ?_, fun hbefore hafter => ?_,
      lowThreshold_le_recoveryThreshold cleaner.options⟩
    · have hsame : cleaner.writesPaused = true := hafter
      rw [hbefore] at hsame
      cases hsame
    · have hsame : cleaner.writesPaused = false := hafter
      rw [hbefore] at hsame
      cases hsame

end Calls

/-! ### The worker and its cleaner -/

/-- How the cleaner answers a call of the worker, and the cleaner after it. -/
def CleanerAnswers (cleaner : StorageCleaner) : Act workerCalls → StorageCleaner → Prop
  | ⟨.runCleaner now, (result : Option CleanupResult)⟩, cleaner' =>
    ∃ trace, (cleanerObject.method cleaner (.run now)).Exec trace (result, cleaner')
  | ⟨.updateCleaner options, _⟩, cleaner' => cleaner' = cleaner.updateOptions options
  | ⟨.acceptingWrites, (accepting : Bool)⟩, cleaner' =>
    accepting = cleaner.acceptingWrites ∧ cleaner' = cleaner
  | ⟨_, _⟩, cleaner' => cleaner' = cleaner

/-- The cleaner of the worker through a trace of it. -/
inductive CleanerThrough (start : StorageCleaner) : Trace workerCalls → StorageCleaner → Prop
  | start : CleanerThrough start [] start
  | act {trace : Trace workerCalls} {cleaner cleaner' : StorageCleaner} {act : Act workerCalls}
      (h : CleanerThrough start trace cleaner) (answers : CleanerAnswers cleaner act cleaner') :
      CleanerThrough start (trace ++ [act]) cleaner'

theorem CleanerThrough.accepted {start cleaner : StorageCleaner} {trace : Trace workerCalls}
    (h : CleanerThrough start (trace ++ [(⟨.acceptingWrites, true⟩ : Act workerCalls)]) cleaner) :
    cleaner.writesPaused = false := by
  generalize hall : trace ++ [(⟨.acceptingWrites, true⟩ : Act workerCalls)] = whole at h
  cases h with
  | start => simp at hall
  | act h answers =>
    obtain ⟨-, hact⟩ := List.append_inj' hall rfl
    cases hact
    obtain ⟨haccepting, rfl⟩ := answers
    simpa [StorageCleaner.acceptingWrites] using haccepting.symm

/-- Over every sequence of calls and whatever they meet, the cleaner pauses writes only in a run
that has failed, or that was short of space at first and still is with everything removed that
may be, and takes them up only in a run that has not failed and ends with the space it asks
for; the low threshold never exceeds that.  And whatever the worker saves in a run of its own,
its cleaner has not paused writes. -/
theorem storage_hysteresis {start final : StorageCleaner × Unit}
    {served : List (Monitor.Served cleanerCalls Unit StorageCleaner Unit CleanerRequest
      (Option CleanupResult))}
    (hcalls : cleanerObject.Serial (fun s _ => s) start served final)
    {worker : PersistenceWorker} {w : Option PersistenceWorker} {cleaner : StorageCleaner}
    {trace : Trace workerCalls} (hrun : worker.Run trace w) :
    (∀ call ∈ served, Hysteresis call.before.1 call.trace call.after.1) ∧
      ∀ before act after, trace = before ++ act :: after → Saves act.op →
        ∀ cleaner', CleanerThrough cleaner before cleaner' → cleaner'.writesPaused = false := by
  constructor
  · intro call hcall
    obtain ⟨first, second, rfl⟩ := List.append_of_mem hcall
    exact call_hysteresis hcalls.cut.2.2.2
  · intro before act after htrace hsaves cleaner' hthrough
    obtain ⟨earlier, rfl⟩ := hrun.accepted htrace hsaves
    exact hthrough.accepted

/-- A cleaner that has paused writes. -/
def pausedCleaner : StorageCleaner := { smallCleaner with writesPaused := true }

/-- It runs until two of the three files have given enough space. -/
def resumingRun : Monitor.Served cleanerCalls Unit StorageCleaner Unit CleanerRequest
    (Option CleanupResult) :=
  let run := pausedCleaner.run 0
  let ended := (run.evalIn (threeFiles.env growingSpace) 0).1
  ⟨(), .run 0, (pausedCleaner, ()), run.traceIn (threeFiles.env growingSpace) 0, ended.1,
    (ended.2, ())⟩

theorem resumingRun_serial :
    cleanerObject.Serial (fun s _ => s) (pausedCleaner, ()) [resumingRun] resumingRun.after := by
  refine Monitor.serial_singleton.mpr ⟨rfl, rfl, rfl, ?_⟩
  exact Prog.exec_evalIn (threeFiles.env growingSpace) (pausedCleaner.run 0) 0

/-- Surroundings of the worker with a frame to store, in which nothing fails. -/
def smoothWorker : Env workerCalls Unit where
  answer _
    | .stopRequested => (false, ())
    | .steadyNow | .systemNow => (0, ())
    | .configured => ({}, ())
    | .servingView =>
      (⟨some ⟨1, 0, 0, 0, parsePd1000Registers (Vector.replicate kPd1000RegisterCount 0)⟩, {}⟩, ())
    | .runCleaner _ => (some {}, ())
    | .updateCleaner _ | .log _ | .sleep _ => ((), ())
    | .acceptingWrites | .saveFrame _ _ | .saveEvent _ => (true, ())

def smoothStart : PersistenceWorker := .entering {} 0

theorem resumingRun_hysteresis :
    (∀ call ∈ [resumingRun], Hysteresis call.before.1 call.trace call.after.1) ∧
      ∀ before act after,
        [] ++ smoothStart.body.traceIn smoothWorker () = before ++ act :: after → Saves act.op →
          ∀ cleaner', CleanerThrough resumingRun.after.1 before cleaner' →
            cleaner'.writesPaused = false :=
  storage_hysteresis resumingRun_serial
    (Prog.Loops.start.round (Prog.exec_evalIn smoothWorker smoothStart.body ()) trivial)

end Uhf.Storage
