/-
The network transaction manager (`platform/network/network_transaction`).

`stage`, `confirm`, `rollbackNow` and `rollbackIfNeeded` are the four operations
of `TransactionManager`, written as programs over the calls they make on the
file lock, the journal (`TransactionStore`), the `Backend` and the `Clock`.
They never look at anything else, so every property of a run is a property of
the sequence of these calls and of their answers.
-/
import UhfGateway.Effects.Program
import UhfGateway.Network.Config

namespace Uhf.Network

open Effects

inductive TransactionState
  | staged
  | confirming
  | confirmed
  | rolledBack
  deriving DecidableEq, Repr

structure Transaction where
  id : UInt64 := 0
  bootId : Bytes := []
  stagedBoottimeNs : UInt64 := 0
  deadlineBoottimeNs : UInt64 := 0
  state : TransactionState := .staged
  previous : NetworkConfig := {}
  candidate : NetworkConfig := {}
  deriving DecidableEq, Repr

/-- A transaction whose outcome is still open. -/
def Transaction.Pending (t : Transaction) : Prop := t.state = .staged ∨ t.state = .confirming

instance (t : Transaction) : Decidable t.Pending := inferInstanceAs (Decidable (_ ∨ _))

/-- `LoadResult`: only a valid result carries a transaction. -/
inductive LoadResult
  | none
  | valid (transaction : Transaction)
  | corrupt
  | ioError
  deriving DecidableEq, Repr

inductive TransactionResult
  | ok
  | notDue
  | noTransaction
  | invalidCandidate
  | busy
  | expired
  | bootChanged
  | corrupt
  | backendError
  | storageError
  deriving DecidableEq, Repr

def transactionResultName : TransactionResult → String
  | .ok => "ok"
  | .notDue => "not_due"
  | .noTransaction => "no_transaction"
  | .invalidCandidate => "invalid_candidate"
  | .busy => "busy"
  | .expired => "expired"
  | .bootChanged => "boot_changed"
  | .corrupt => "corrupt"
  | .backendError => "backend_error"
  | .storageError => "storage_error"

/-- What a load of the journal file may deliver: its content, or a read error
that is reported as such or as a damaged file. -/
def LoadResult.Reads (journal : Option Transaction) (r : LoadResult) : Prop :=
  r = .ioError ∨ r = .corrupt ∨ r = journal.elim .none .valid

/-! ### The calls of the manager -/

/-- The sub-steps of a manager operation. -/
inductive TransactionCall
  | lock
  | load
  | save (transaction : Transaction)
  | clear
  | readCurrent
  | applyStage (previous candidate : NetworkConfig)
  | confirm (previous candidate : NetworkConfig)
  | rollback (previous candidate : NetworkConfig)
  | bootId
  | boottimeNs
  deriving DecidableEq

/-- What each sub-step reports back; a `readCurrent` that fails delivers nothing. -/
@[reducible] def transactionCalls : Interface where
  Op := TransactionCall
  Answer
    | .load => LoadResult
    | .readCurrent => Option NetworkConfig
    | .bootId => Bytes
    | .boottimeNs => UInt64
    | _ => Bool

/-- A program of the transaction manager. -/
abbrev TransactionProg := Prog transactionCalls

/-- Perform a sub-step and go on with its answer. -/
abbrev ask {α : Type} (c : TransactionCall)
    (k : transactionCalls.Answer c → TransactionProg α) : TransactionProg α :=
  Prog.call (I := transactionCalls) c k

/-! ### TransactionManager -/

/-- The memory of a `TransactionManager` object; a new process starts afresh. -/
structure TransactionManager where
  rollbackWindowNs : UInt64 := 60 * 1000 * 1000 * 1000
  nextId : UInt64 := 1
  lastError : String := ""
  deriving DecidableEq, Repr

/-- What an operation hands back: its result and the manager's memory after it. -/
abbrev OperationResult := TransactionResult × TransactionManager

namespace TransactionManager

def setError (m : TransactionManager) (result : TransactionResult) (message : String) :
    OperationResult :=
  (result, { m with lastError := message })

/-- The journal part of `rollback_loaded`, after the backend has rolled back. -/
def recordRolledBack (m : TransactionManager) (transaction : Transaction)
    (reason : TransactionResult) : TransactionProg OperationResult :=
  ask (.save { transaction with state := .rolledBack }) fun saved =>
  if !saved then
    .done (m.setError .storageError "rolled back network transaction cannot be cleared")
  else
    ask .clear fun cleared =>
    if !cleared then
      .done (m.setError .storageError "rolled back network transaction cannot be cleared")
    else if reason = .expired ∨ reason = .bootChanged then
      .done (m.setError reason (transactionResultName reason))
    else
      .done (.ok, m)

def rollbackLoaded (m : TransactionManager) (transaction : Transaction)
    (reason : TransactionResult) : TransactionProg OperationResult :=
  ask (.rollback transaction.previous transaction.candidate) fun rolledBack =>
  if !rolledBack then
    .done (m.setError .backendError "network rollback failed")
  else
    m.recordRolledBack transaction reason

/-- `stage` once the transaction is journalled. -/
def applyStaged (m : TransactionManager) (previous candidate : NetworkConfig) :
    TransactionProg OperationResult :=
  ask (.applyStage previous candidate) fun applied =>
  if !applied then
    ask (.rollback previous candidate) fun rolledBack =>
    if !rolledBack then
      .done (m.setError .backendError "stage failed and rollback is pending")
    else
      ask .clear fun cleared =>
      if !cleared then
        .done (m.setError .storageError "failed stage transaction cannot be cleared")
      else
        .done (m.setError .backendError "network stage failed")
  else
    .done (.ok, m)

/-- `stage` once the lock is held and no transaction is pending. -/
def stageUnlocked (m : TransactionManager) (candidate : NetworkConfig) :
    TransactionProg OperationResult :=
  ask .readCurrent fun
  | none => .done (m.setError .backendError "current network state is unavailable")
  | some previous =>
    if !(validate previous).valid then
      .done (m.setError .backendError "current network state is unavailable")
    else
      ask .bootId fun bootId =>
      ask .boottimeNs fun staged =>
      -- the deadline below must not wrap around
      if bootId.isEmpty ∨ staged = 0 ∨ m.rollbackWindowNs > (0xFFFFFFFFFFFFFFFF : UInt64) - staged then
        .done (m.setError .backendError "monotonic boot clock is unavailable")
      else
        let transaction : Transaction :=
          { id := m.nextId, bootId := bootId, stagedBoottimeNs := staged,
            deadlineBoottimeNs := staged + m.rollbackWindowNs, state := .staged,
            previous := previous, candidate := candidate }
        let m := { m with nextId := m.nextId + 1 }
        ask (.save transaction) fun saved =>
        if !saved then
          .done (m.setError .storageError "network transaction cannot be persisted")
        else
          m.applyStaged previous candidate

def stage (m : TransactionManager) (candidate : NetworkConfig) :
    TransactionProg OperationResult :=
  let m := { m with lastError := "" }
  if !(validate candidate).valid then
    .done (m.setError .invalidCandidate "candidate network configuration is invalid")
  else
    ask .lock fun acquired =>
    if !acquired then
      .done (m.setError .busy "another network operation is in progress")
    else
      ask .load fun
      | .corrupt => .done (m.setError .corrupt "network transaction is corrupt")
      | .ioError => .done (m.setError .storageError "network transaction cannot be read")
      | .none => m.stageUnlocked candidate
      | .valid transaction =>
        if transaction.Pending then
          .done (m.setError .busy "another network transaction is pending")
        else
          m.stageUnlocked candidate

/-- The common opening of `confirm`, `rollback_now` and `rollback_if_needed`:
take the lock, load the journal, and go on with the transaction found in it. -/
def withLoaded (m : TransactionManager)
    (go : TransactionManager → Transaction → TransactionProg OperationResult) :
    TransactionProg OperationResult :=
  let m := { m with lastError := "" }
  ask .lock fun acquired =>
  if !acquired then
    .done (m.setError .busy "another network operation is in progress")
  else
    ask .load fun
    | .none => .done (m.setError .noTransaction "no network transaction is pending")
    | .corrupt => .done (m.setError .corrupt "network transaction is corrupt")
    | .ioError => .done (m.setError .storageError "network transaction cannot be read")
    | .valid transaction => go m transaction

/-- `confirm` of a transaction that is still within its window. -/
def confirmLoaded (m : TransactionManager) (transaction : Transaction) :
    TransactionProg OperationResult :=
  ask (.save { transaction with state := .confirming }) fun saved =>
  if !saved then
    .done (m.setError .storageError "network confirmation cannot be journaled")
  else
    ask (.confirm transaction.previous transaction.candidate) fun confirmed =>
    if !confirmed then
      ask (.rollback transaction.previous transaction.candidate) fun rolledBack =>
      if !rolledBack then
        .done (m.setError .backendError "network confirmation failed and rollback is pending")
      else
        ask .clear fun cleared =>
        if !cleared then
          .done (m.setError .storageError "failed network confirmation cannot be cleared")
        else
          .done (m.setError .backendError "network confirmation failed")
    else
      ask (.save { transaction with state := .confirmed }) fun saved =>
      if !saved then
        .done (m.setError .storageError "confirmed network transaction cannot be cleared")
      else
        ask .clear fun cleared =>
        if !cleared then
          .done (m.setError .storageError "confirmed network transaction cannot be cleared")
        else
          .done (.ok, m)

def confirm (m : TransactionManager) : TransactionProg OperationResult :=
  m.withLoaded fun m transaction =>
    if transaction.state ≠ .staged then
      if transaction.state = .confirming then
        .done (m.setError .busy "network confirmation recovery is pending")
      else
        .done (m.setError .noTransaction "network transaction is no longer pending")
    else
      ask .bootId fun bootId =>
      ask .boottimeNs fun now =>
      if bootId ≠ transaction.bootId then
        m.rollbackLoaded transaction .bootChanged
      else if now = 0 ∨ transaction.deadlineBoottimeNs ≤ now then
        m.rollbackLoaded transaction .expired
      else
        m.confirmLoaded transaction

def rollbackNow (m : TransactionManager) : TransactionProg OperationResult :=
  m.withLoaded fun m transaction =>
    if ¬ transaction.Pending then
      .done (m.setError .noTransaction "network transaction is no longer pending")
    else
      m.rollbackLoaded transaction .ok

def rollbackIfNeeded (m : TransactionManager) : TransactionProg OperationResult :=
  m.withLoaded fun m transaction =>
    if transaction.state = .confirming then
      m.rollbackLoaded transaction .ok
    else if transaction.state ≠ .staged then
      ask .clear fun cleared =>
      if !cleared then
        .done (m.setError .storageError "completed network transaction cannot be cleared")
      else
        .done (.ok, m)
    else
      ask .bootId fun bootId =>
      ask .boottimeNs fun now =>
      if bootId = transaction.bootId ∧ now ≠ 0 ∧ now < transaction.deadlineBoottimeNs then
        .done (m.setError .notDue
          "network transaction is still within its confirmation window")
      else
        m.rollbackLoaded transaction
          (if bootId = transaction.bootId then .expired else .bootChanged)

end TransactionManager

/-! ### Operations -/

/-- The public operations of the manager that act on the journal. -/
inductive Operation
  | stage (candidate : NetworkConfig)
  | confirm
  | rollbackNow
  | rollbackIfNeeded
  deriving DecidableEq

/-- The program an operation runs on a manager. -/
def Operation.program (m : TransactionManager) : Operation → TransactionProg OperationResult
  | .stage candidate => m.stage candidate
  | .confirm => m.confirm
  | .rollbackNow => m.rollbackNow
  | .rollbackIfNeeded => m.rollbackIfNeeded

end Uhf.Network
