/-
Runs of the store of the administrator's password (`AuthStore`).

`construct` is the constructor.  `changePassword` writes the new record to the file before it
takes the place of the one in memory, and any of its system calls may fail.

* `replaceFile_lost` — a write that is reported as failed has replaced the file only where the
  directory cannot be synced behind the rename;
* `constructed_loaded`, `constructed_of_loaded` — what a constructor makes of the file;
* `memory_and_disk_agree` — after every call of a run in which no directory is lost behind a
  rename, a store opened on the same directory accepts what this one accepts.
-/
import UhfGateway.Effects.Monitor
import UhfGateway.Web.AuthStore
import UhfGateway.Web.Routes
import UhfGateway.Web.StateFiles

namespace Uhf.Web.Auth

open Effects Posix Posix.Disk Storage
open Config (Replaces Written syncDirectory ne_temporary)

/-! ### Operations -/

/-- What the store asks for besides its files. -/
inductive AuthCall
  /-- `stat`: whether the mode of the file is that of a private one; `none` is an error. -/
  | isPrivate (path : Bytes)
  | chmod (path : Bytes)
  | randomBytes (count : ℕ)

@[reducible] def ownCalls : Interface where
  Op := AuthCall
  Answer
    | .isPrivate _ => Option Bool
    | .chmod _ => Bool
    | .randomBytes count => Option (Vector UInt8 count)

abbrev authCalls := Interface.sum ownCalls stateCalls

/-- An operation on a file. -/
def onFile {α : Type} (call : FileCall) (k : fileCalls.Answer call → Prog authCalls α) :
    Prog authCalls α :=
  .call (I := authCalls) (.inr (.inr call)) k

def authPath (stateDirectory : Bytes) : Bytes := appendPath stateDirectory (ascii "auth.json")

def bootstrapPath (stateDirectory : Bytes) : Bytes :=
  appendPath stateDirectory (ascii "initial-password")

def kDefaultBootstrapPassword : Bytes := ascii "admin"

/-! ### Reading and writing -/

/-- `read_file`; `none` if it throws. -/
def readState (path : Bytes) (maxBytes : ℕ) : Prog authCalls (Option Bytes) :=
  onFile (.fileSize path) fun (size : Option ℕ) =>
    match size with
    | none => .done none
    | some size =>
      if maxBytes < size then .done none
      else onFile (.readFile path) fun (contents : Option Bytes) =>
        match contents with
        | none => .done none
        | some contents => .done (if maxBytes < contents.length then none else some contents)

/-- `write_atomic`; every descriptor that is still open is closed. -/
def writeAtomic (path contents : Bytes) : Prog authCalls Bool :=
  (replaceFile (fun _ => true) path contents).inr.inr

/-- `remove_file_best_effort`. -/
def removeFileBestEffort (path : Bytes) : Prog authCalls Unit :=
  onFile (.remove path) fun (removed : Option Bool) =>
    match removed with
    | none => .done ()
    | some _ => (syncDirectory.inr.inr : Prog authCalls Bool) >>= fun _ => .done ()

def ensurePrivateDirectory : Prog authCalls Bool :=
  onFile .createDirectories fun (created : Bool) =>
    if !created then .done false
    else onFile .isDirectory fun (directory : Bool) =>
      if !directory then .done false
      else onFile .chmodDirectory fun (moded : Bool) => .done moded

def ensurePrivateFile (path : Bytes) : Prog authCalls Bool :=
  .call (I := authCalls) (.inl (.isPrivate path)) fun (isPrivate : Option Bool) =>
    match isPrivate with
    | none => .done false
    | some true => .done true
    | some false => .call (I := authCalls) (.inl (.chmod path)) fun (moded : Bool) => .done moded

/-- `std::filesystem::exists`. -/
def present {α : Type} (path : Bytes) (k : Option Bool → Prog authCalls α) : Prog authCalls α :=
  .call (I := authCalls) (.inr (.inl (.present path))) k

/-! ### The constructor -/

def isBlank (c : UInt8) : Bool :=
  c = ' '.toUInt8 || c = '\t'.toUInt8 || c = '\r'.toUInt8 || c = '\n'.toUInt8

def trim (value : Bytes) : Bytes := ((value.dropWhile isBlank).reverse.dropWhile isBlank).reverse

def validBootstrapPassword (password : Bytes) : Bool :=
  password = kDefaultBootstrapPassword || password.length = kSaltBytes * 2

/-- The file is there. -/
def openExisting (stateDirectory : Bytes) : Prog authCalls (Option Record) :=
  readState (authPath stateDirectory) 4096 >>= fun json =>
    match json.bind loadRecord with
    | none => .done none
    | some record =>
      ensurePrivateFile (authPath stateDirectory) >>= fun ensured =>
        if !ensured then .done none
        else present (bootstrapPath stateDirectory) fun (bootstrapExists : Option Bool) =>
          if bootstrapExists ≠ some true then .done (some record)
          else ensurePrivateFile (bootstrapPath stateDirectory) >>= fun ensured =>
            .done (if ensured then some record else none)

/-- The first password, from the file the operator has put there or the built-in one. -/
def bootstrapPassword (stateDirectory : Bytes) : Prog authCalls (Option Bytes) :=
  present (bootstrapPath stateDirectory) fun (bootstrapExists : Option Bool) =>
    match bootstrapExists with
    | none => .done none
    | some true =>
      readState (bootstrapPath stateDirectory) (kMaxPasswordBytes + 1) >>= fun contents =>
        match contents with
        | none => .done none
        | some contents =>
          ensurePrivateFile (bootstrapPath stateDirectory) >>= fun ensured =>
            .done (if ensured && validBootstrapPassword (trim contents) then some (trim contents)
              else none)
    | some false =>
      writeAtomic (bootstrapPath stateDirectory) (kDefaultBootstrapPassword ++ ascii "\n") >>=
        fun written => .done (if written then some kDefaultBootstrapPassword else none)

/-- The record of a password under a new salt. -/
def newRecord (pbkdf2 : Pbkdf2) (iterations : UInt32) (range : InRange iterations)
    (salt : Vector UInt8 kSaltBytes) (password : Bytes) : Record where
  iterations := iterations
  salt := salt
  passwordHash := pbkdf2 password salt iterations
  mustChange := false
  range := range

def createStore (pbkdf2 : Pbkdf2) (stateDirectory : Bytes) : Prog authCalls (Option Record) :=
  bootstrapPassword stateDirectory >>= fun password =>
    match password with
    | none => .done none
    | some password =>
      .call (I := authCalls) (.inl (.randomBytes kSaltBytes))
        fun (salt : Option (Vector UInt8 kSaltBytes)) =>
          match salt with
          | none => .done none
          | some salt =>
            let record := newRecord pbkdf2 kPasswordIterations kPasswordIterations_inRange salt password
            writeAtomic (authPath stateDirectory) (serializeRecord record) >>= fun written =>
              .done (if written then some record else none)

/-- The constructor; `none` if it throws. -/
def construct (pbkdf2 : Pbkdf2) (stateDirectory : Bytes) : Prog authCalls (Option Record) :=
  ensurePrivateDirectory >>= fun prepared =>
    if !prepared then .done none
    else present (authPath stateDirectory) fun (authExists : Option Bool) =>
      match authExists with
      | none => .done none
      | some true => openExisting stateDirectory
      | some false => createStore pbkdf2 stateDirectory

/-! ### Changing the password -/

/-- `change_password`: the result, `none` if it throws, and the record in memory. -/
def change (pbkdf2 : Pbkdf2) (stateDirectory : Bytes) (record : Record) (current new : Bytes) :
    Prog authCalls (Option PasswordChangeResult × Record) :=
  if new.length < 12 ∨ kMaxPasswordBytes < new.length ∨ kMaxPasswordBytes < current.length ∨
      new = current then .done (some .invalidNewPassword, record)
  else if !verifyPassword pbkdf2 record (ascii "admin") current then
    .done (some .invalidCurrentPassword, record)
  else
    .call (I := authCalls) (.inl (.randomBytes kSaltBytes))
      fun (salt : Option (Vector UInt8 kSaltBytes)) =>
        match salt with
        | none => .done (none, record)
        | some salt =>
          let updated := newRecord pbkdf2 record.iterations record.range salt new
          writeAtomic (authPath stateDirectory) (serializeRecord updated) >>= fun written =>
            if !written then .done (some .storageError, record)
            else removeFileBestEffort (bootstrapPath stateDirectory) >>= fun _ =>
              .done (some .changed, updated)

/-- The calls of `change_password`, with the two passwords of each. -/
def authStore (pbkdf2 : Pbkdf2) (stateDirectory : Bytes) :
    Monitor authCalls Record (Bytes × Bytes) (Option PasswordChangeResult) where
  method record request := change pbkdf2 stateDirectory record request.1 request.2

/-! ### What a write does -/

/-- The directory cannot be opened or synced. -/
inductive SyncFails : Trace fileCalls → Prop
  | unopened (rest : Trace fileCalls) : SyncFails (⟨.openDirectory, (none : Option ℕ)⟩ :: rest)
  | unsynced (descriptor : ℕ) (rest : Trace fileCalls) :
      SyncFails (⟨.openDirectory, some descriptor⟩ :: ⟨.fsync descriptor, false⟩ :: rest)

/-- The file is replaced, and what comes next is a directory that cannot be synced. -/
def SyncLost (path : Bytes) (trace : Trace fileCalls) : Prop :=
  ∃ before rest, trace = before ++ ⟨.rename (path ++ kTemporary) path, true⟩ :: rest ∧ SyncFails rest

/-- An operation that replaces no file. -/
def NoRename (call : FileCall) : Prop := ∀ source target, call ≠ .rename source target

section Writing

variable {path contents : Bytes} {descriptor : ℕ} {trace rest : Trace fileCalls}
  {closes : WriteStep → Bool} {complete : Bool}

theorem SyncLost.behind (h : SyncLost path rest) (first : Trace fileCalls) :
    SyncLost path (first ++ rest) := by
  obtain ⟨before, after, rfl, hfails⟩ := h
  exact ⟨first ++ before, after, (List.append_assoc ..).symm, hfails⟩

theorem SyncLost.before (h : SyncLost path trace) (rest : Trace fileCalls) :
    SyncLost path (trace ++ rest) := by
  obtain ⟨before, after, rfl, hfails⟩ := h
  refine ⟨before, after ++ rest, by rw [List.append_assoc]; rfl, ?_⟩
  cases hfails with
  | unopened after => exact .unopened _
  | unsynced descriptor after => exact .unsynced descriptor _

/-- What renames nothing replaces nothing. -/
theorem not_replaces {α : Type} {p : Prog fileCalls α} {r : α} (hp : p.Only NoRename)
    (h : p.Exec trace r) : ¬ Replaces path trace := by
  intro hmem
  exact hp.trace h _ hmem _ _ rfl

theorem replaces_append (hfirst : ¬ Replaces path trace) (h : Replaces path (trace ++ rest)) :
    Replaces path rest := by
  obtain hmem | hmem := List.mem_append.mp h
  · exact absurd hmem hfirst
  · exact hmem

theorem replaces_cons {act : Act fileCalls} (hact : NoRename act.op)
    (h : Replaces path (act :: rest)) : Replaces path rest := by
  obtain rfl | hmem := List.mem_cons.mp h
  · exact absurd rfl (hact _ _)
  · exact hmem

theorem writeLoop_noRename (descriptor : ℕ) (bytes : Bytes) :
    (writeLoop descriptor bytes).Only NoRename := by
  refine (writeLoop_only descriptor bytes).mono ?_
  rintro call ⟨bytes, rfl⟩ source target heq
  cases heq

theorem giveUp_noRename (closing : Bool) (temporary : Bytes) (descriptor : ℕ) :
    (giveUp closing temporary descriptor).Only NoRename := by
  cases closing with
  | false => exact ⟨by simp [NoRename], fun _ => trivial⟩
  | true => exact ⟨by simp [NoRename], fun _ => ⟨by simp [NoRename], fun _ => trivial⟩⟩

theorem discard_noRename (temporary : Bytes) : (Storage.discard temporary).Only NoRename :=
  ⟨by simp [NoRename], fun _ => trivial⟩

theorem syncDirectory_fails (h : syncDirectory.Exec trace false) (rest : Trace fileCalls) :
    SyncFails (trace ++ rest) := by
  obtain ⟨opened, behind, rfl, hopened⟩ := Prog.exec_call.mp h
  cases opened with
  | none => exact .unopened _
  | some descriptor =>
    obtain ⟨synced, behind, rfl, hsynced⟩ := Prog.exec_call.mp hopened
    obtain ⟨closed, behind, rfl, hclosed⟩ := Prog.exec_call.mp hsynced
    obtain ⟨-, rfl⟩ := Prog.exec_done.mp hclosed
    exact .unsynced descriptor _

theorem syncDirectory_content (h : syncDirectory.Exec trace complete) (d : Disk) :
    (after d trace).content = d.content := by
  obtain ⟨opened, behind, rfl, hopened⟩ := Prog.exec_call.mp h
  cases opened with
  | none =>
    obtain ⟨rfl, -⟩ := Prog.exec_done.mp hopened
    rfl
  | some descriptor =>
    obtain ⟨synced, behind, rfl, hsynced⟩ := Prog.exec_call.mp hopened
    obtain ⟨closed, behind, rfl, hclosed⟩ := Prog.exec_call.mp hsynced
    obtain ⟨rfl, -⟩ := Prog.exec_done.mp hclosed
    rfl

/-- A write that fails has replaced the file only if the directory is lost behind the rename. -/
theorem finishReplace_lost (h : (finishReplace closes path contents descriptor).Exec trace false)
    (hreplaces : Replaces path trace) : SyncLost path trace := by
  obtain ⟨moded, rest, rfl, hmoded⟩ := Prog.exec_call.mp h
  have h₁ := replaces_cons (by simp [NoRename]) hreplaces
  refine SyncLost.behind ?_ [_]
  cases moded with
  | false => exact absurd h₁ (not_replaces (giveUp_noRename _ _ _) hmoded)
  | true =>
    obtain ⟨first, rest, complete, rfl, hwrite, hwritten⟩ := Prog.exec_bind.mp hmoded
    have h₂ := replaces_append (not_replaces (writeLoop_noRename _ _) hwrite) h₁
    refine SyncLost.behind ?_ first
    cases complete with
    | false => exact absurd h₂ (not_replaces (giveUp_noRename _ _ _) hwritten)
    | true =>
      obtain ⟨synced, rest, rfl, hsynced⟩ := Prog.exec_call.mp hwritten
      have h₃ := replaces_cons (by simp [NoRename]) h₂
      refine SyncLost.behind ?_ [_]
      cases synced with
      | false => exact absurd h₃ (not_replaces (giveUp_noRename _ _ _) hsynced)
      | true =>
        obtain ⟨closed, rest, rfl, hclosed⟩ := Prog.exec_call.mp hsynced
        have h₄ := replaces_cons (by simp [NoRename]) h₃
        refine SyncLost.behind ?_ [_]
        cases closed with
        | false => exact absurd h₄ (not_replaces (discard_noRename _) hclosed)
        | true =>
          obtain ⟨renamed, rest, rfl, hrenamed⟩ := Prog.exec_call.mp hclosed
          cases renamed with
          | false =>
            obtain heq | hmem := List.mem_cons.mp h₄
            · cases heq
            · exact absurd hmem (not_replaces (discard_noRename _) hrenamed)
          | true =>
            obtain ⟨first, rest, synced, rfl, hsync, hend⟩ := Prog.exec_bind.mp hrenamed
            cases synced with
            | false => exact ⟨[], first ++ rest, rfl, syncDirectory_fails hsync rest⟩
            | true => cases (Prog.exec_done.mp hend).2

theorem replaceFile_lost (h : (replaceFile closes path contents).Exec trace false)
    (hreplaces : Replaces path trace) : SyncLost path trace := by
  obtain ⟨opened, rest, rfl, hopened⟩ := Prog.exec_call.mp h
  have hlater := replaces_cons (by simp [NoRename]) hreplaces
  cases opened with
  | none =>
    obtain ⟨rfl, -⟩ := Prog.exec_done.mp hopened
    cases hlater
  | some descriptor => exact (finishReplace_lost hopened hlater).behind [_]

end Writing

/-! ### The disk behind a trace -/

def performAuth (d : Disk) : Act authCalls → Disk
  | ⟨.inl _, _⟩ => d
  | ⟨.inr call, answer⟩ => performState d ⟨call, answer⟩

/-- The operations on files among those of the store. -/
def fileAct : Act authCalls → Option (Act fileCalls)
  | ⟨.inr (.inr call), answer⟩ => some ⟨call, answer⟩
  | _ => none

def fileActs (trace : Trace authCalls) : Trace fileCalls := trace.filterMap fileAct

section Files

variable {path contents stateDirectory : Bytes} {trace : Trace authCalls} {complete : Bool}
  {d d' : Disk} {record record' : Record}

theorem fileActs_append (first rest : Trace authCalls) :
    fileActs (first ++ rest) = fileActs first ++ fileActs rest := List.filterMap_append

theorem fileActs_inr (acts : Trace fileCalls) : fileActs ((acts.map Act.inr).map Act.inr) = acts := by
  induction acts with
  | nil => rfl
  | cons act acts ih =>
    have htail : fileActs (((act :: acts).map Act.inr).map Act.inr) =
        act :: fileActs ((acts.map Act.inr).map Act.inr) := rfl
    rw [htail, ih]

theorem foldl_inr (d : Disk) (acts : Trace fileCalls) :
    ((acts.map Act.inr).map Act.inr).foldl performAuth d = after d acts := by
  rw [List.foldl_map, List.foldl_map]
  rfl

/-- What a write has done, whatever fails in it. -/
theorem writeAtomic_written (h : (writeAtomic path contents).Exec trace complete) (d : Disk) :
    ∃ acts, trace = (acts.map Act.inr).map Act.inr ∧ Written d path contents acts ∧
      (complete = true → Replaces path acts) ∧
        (complete = false → Replaces path acts → SyncLost path acts) := by
  obtain ⟨outer, houter, rfl⟩ := Prog.exec_inr.mp h
  obtain ⟨acts, hacts, rfl⟩ := Prog.exec_inr.mp houter
  obtain ⟨hwritten, hreplaces⟩ := (rewrites_replaceFile (fun _ => true) d path contents).outcome hacts
  refine ⟨acts, rfl, hwritten, hreplaces, ?_⟩
  rintro rfl
  exact replaceFile_lost hacts

theorem Written.content {acts : Trace fileCalls} (h : Written d path contents acts)
    (hreplaces : Replaces path acts) : (after d acts).content path = some contents := by
  cases h with
  | kept hnot _ => exact absurd hreplaces hnot
  | replaced _ hbeside => rw [hbeside path (ne_temporary path), Function.update_self]

theorem Written.unchanged {acts : Trace fileCalls} (h : Written d path contents acts)
    (hnot : ¬ Replaces path acts) : (after d acts).content path = d.content path := by
  cases h with
  | kept _ hbeside => exact hbeside path (ne_temporary path)
  | replaced hreplaces _ => exact absurd hreplaces hnot

/-! ### The file and the record -/

/-- The file of the store is that of the record. -/
def Loaded (stateDirectory : Bytes) (d : Disk) (record : Record) : Prop :=
  ∃ json, d.content (authPath stateDirectory) = some json ∧ json.length ≤ 4096 ∧
    loadRecord json = some record

theorem loaded_serialized (h : d.content (authPath stateDirectory) = some (serializeRecord record)) :
    Loaded stateDirectory d record :=
  ⟨_, h, length_serializeRecord record, loadRecord_serializeRecord record⟩

theorem Loaded.congr (h : Loaded stateDirectory d record)
    (hcontent : d'.content (authPath stateDirectory) = d.content (authPath stateDirectory)) :
    Loaded stateDirectory d' record := by
  obtain ⟨json, hjson, hload⟩ := h
  exact ⟨json, hcontent.trans hjson, hload⟩

theorem Loaded.unique (h : Loaded stateDirectory d record) (h' : Loaded stateDirectory d record') :
    record' = record := by
  obtain ⟨json, hjson, -, hload⟩ := h
  obtain ⟨json', hjson', -, hload'⟩ := h'
  obtain rfl := Option.some.inj (hjson.symm.trans hjson')
  exact Option.some.inj (hload'.symm.trans hload)

theorem appendPath_injective {directory first second : Bytes} (hfirst : first.head? ≠ some '/'.toUInt8)
    (hsecond : second.head? ≠ some '/'.toUInt8)
    (h : appendPath directory first = appendPath directory second) : first = second := by
  rw [appendPath, appendPath, if_neg hfirst, if_neg hsecond] at h
  split at h
  · exact List.append_cancel_left h
  · exact List.append_cancel_left h

theorem authPath_ne_bootstrapPath : authPath stateDirectory ≠ bootstrapPath stateDirectory := by
  intro h
  exact absurd (appendPath_injective (by decide) (by decide) h) (by decide)

/-- Removing the first password leaves the file of the store alone. -/
theorem removeFileBestEffort_unchanged {r : Unit}
    (h : (removeFileBestEffort (bootstrapPath stateDirectory)).Exec trace r) (d : Disk) :
    (trace.foldl performAuth d).content (authPath stateDirectory) =
      d.content (authPath stateDirectory) := by
  obtain ⟨removed, behind, rfl, hremoved⟩ := Prog.exec_call.mp h
  have hremove : (performAuth d ⟨.inr (.inr (.remove (bootstrapPath stateDirectory))), removed⟩).content
      (authPath stateDirectory) = d.content (authPath stateDirectory) := by
    show (perform d ⟨.remove (bootstrapPath stateDirectory), removed⟩).content _ = _
    simp only [perform]
    split
    · rw [removed_content, Function.update_of_ne authPath_ne_bootstrapPath]
    · rfl
  rw [List.foldl_cons]
  cases removed with
  | none =>
    obtain ⟨rfl, -⟩ := Prog.exec_done.mp hremoved
    exact hremove
  | some removed =>
    obtain ⟨first, rest, synced, rfl, hsync, hend⟩ := Prog.exec_bind.mp hremoved
    obtain ⟨rfl, -⟩ := Prog.exec_done.mp hend
    obtain ⟨outer, houter, rfl⟩ := Prog.exec_inr.mp hsync
    obtain ⟨acts, hacts, rfl⟩ := Prog.exec_inr.mp houter
    rw [List.append_nil, foldl_inr, syncDirectory_content hacts]
    exact hremove

variable {pbkdf2 : Pbkdf2} {current new : Bytes} {result : Option PasswordChangeResult}

/-- What one call has done: nothing, or it has written a record of the new password and keeps it
if the write was reported complete. -/
inductive Changed (pbkdf2 : Pbkdf2) (stateDirectory : Bytes) (record : Record) (new : Bytes)
    (trace : Trace authCalls) : Option PasswordChangeResult → Record → Prop
  | untouched {result : Option PasswordChangeResult} (htrace : fileActs trace = [])
      (hdisk : ∀ d : Disk, trace.foldl performAuth d = d) (hresult : result ≠ some .changed)
      (hreported : result ≠ some .storageError) :
      Changed pbkdf2 stateDirectory record new trace result record
  | failed (salt : Vector UInt8 kSaltBytes) (write : Trace authCalls)
      (hlength : new.length ≤ kMaxPasswordBytes) (hacts : fileActs trace = fileActs write)
      (hdisk : ∀ d : Disk, trace.foldl performAuth d = write.foldl performAuth d)
      (exec : (writeAtomic (authPath stateDirectory) (serializeRecord
        (newRecord pbkdf2 record.iterations record.range salt new))).Exec write false) :
      Changed pbkdf2 stateDirectory record new trace (some .storageError) record
  | stored (salt : Vector UInt8 kSaltBytes) (write : Trace authCalls)
      (hdisk : ∀ d : Disk, (trace.foldl performAuth d).content (authPath stateDirectory) =
        (write.foldl performAuth d).content (authPath stateDirectory))
      (exec : (writeAtomic (authPath stateDirectory) (serializeRecord
        (newRecord pbkdf2 record.iterations record.range salt new))).Exec write true) :
      Changed pbkdf2 stateDirectory record new trace (some .changed)
        (newRecord pbkdf2 record.iterations record.range salt new)

theorem change_cases (h : (change pbkdf2 stateDirectory record current new).Exec trace
    (result, record')) : Changed pbkdf2 stateDirectory record new trace result record' := by
  have hdone : ∀ {r : Option PasswordChangeResult}, r ≠ some .changed → r ≠ some .storageError →
      (Prog.done (r, record) : Prog authCalls _).Exec trace (result, record') →
        Changed pbkdf2 stateDirectory record new trace result record' := by
    intro r hr hreported hexec
    obtain ⟨rfl, hresult⟩ := Prog.exec_done.mp hexec
    obtain ⟨rfl, rfl⟩ := Prod.mk.inj hresult
    exact .untouched rfl (fun _ => rfl) hr hreported
  rw [change] at h
  refine h.of_ite (fun _ hexec => hdone (by simp) (by simp) hexec) fun hlengths hverify => ?_
  have hlength : new.length ≤ kMaxPasswordBytes := by
    simp only [not_or] at hlengths
    exact Nat.not_lt.mp hlengths.2.1
  refine hverify.of_ite (fun _ hexec => hdone (by simp) (by simp) hexec) fun _ hrandom => ?_
  obtain ⟨salt, rest, rfl, hsalt⟩ := Prog.exec_call.mp hrandom
  cases salt with
  | none =>
    obtain ⟨rfl, hresult⟩ := Prog.exec_done.mp hsalt
    obtain ⟨rfl, rfl⟩ := Prod.mk.inj hresult
    exact .untouched rfl (fun _ => rfl) (by simp) (by simp)
  | some salt =>
    obtain ⟨write, behind, written, rfl, hwrite, hwritten⟩ := Prog.exec_bind.mp hsalt
    cases written with
    | false =>
      obtain ⟨rfl, hresult⟩ := Prog.exec_done.mp hwritten
      obtain ⟨rfl, rfl⟩ := Prod.mk.inj hresult
      rw [List.append_nil]
      exact .failed salt write hlength rfl (fun _ => rfl) hwrite
    | true =>
      obtain ⟨removal, behind, u, rfl, hremove, hend⟩ := Prog.exec_bind.mp hwritten
      obtain ⟨rfl, hresult⟩ := Prog.exec_done.mp hend
      obtain ⟨rfl, rfl⟩ := Prod.mk.inj hresult
      refine .stored salt write (fun d => ?_) hwrite
      rw [List.append_nil, List.foldl_cons, List.foldl_append]
      exact removeFileBestEffort_unchanged hremove _

/-- A call that does not lose the directory behind its rename leaves the record it has in memory
in the file; one that does not succeed has changed neither. -/
theorem change_loaded (hloaded : Loaded stateDirectory d record)
    (h : (change pbkdf2 stateDirectory record current new).Exec trace (result, record'))
    (hsynced : ¬ SyncLost (authPath stateDirectory) (fileActs trace)) :
    Loaded stateDirectory (trace.foldl performAuth d) record' ∧
      (result ≠ some .changed → record' = record) := by
  cases change_cases h with
  | untouched _ hdisk _ _ =>
    rw [hdisk]
    exact ⟨hloaded, fun _ => rfl⟩
  | failed salt write hlength hacts hdisk exec =>
    obtain ⟨acts, rfl, hwritten, -, hlost⟩ := writeAtomic_written exec d
    rw [hacts, fileActs_inr] at hsynced
    have hnot : ¬ Replaces (authPath stateDirectory) acts := fun hreplaces =>
      hsynced (hlost rfl hreplaces)
    refine ⟨hloaded.congr ?_, fun _ => rfl⟩
    rw [hdisk, foldl_inr, Written.unchanged hwritten hnot]
  | stored salt write hdisk exec =>
    obtain ⟨acts, rfl, hwritten, hreplaces, -⟩ := writeAtomic_written exec d
    refine ⟨loaded_serialized ?_, fun hresult => absurd rfl hresult⟩
    rw [hdisk, foldl_inr, Written.content hwritten (hreplaces rfl)]

/-- A call that fails with the file replaced leaves the record of the new password there. -/
theorem change_lost
    (h : (change pbkdf2 stateDirectory record current new).Exec trace
      (some .storageError, record'))
    (hreplaced : Replaces (authPath stateDirectory) (fileActs trace)) (d : Disk) :
    record' = record ∧ new.length ≤ kMaxPasswordBytes ∧
      ∃ salt, Loaded stateDirectory (trace.foldl performAuth d)
        (newRecord pbkdf2 record.iterations record.range salt new) := by
  cases change_cases h with
  | untouched _ _ _ hreported => exact absurd rfl hreported
  | failed salt write hlength hacts hdisk exec =>
    obtain ⟨acts, rfl, hwritten, -, -⟩ := writeAtomic_written exec d
    rw [hacts, fileActs_inr] at hreplaced
    refine ⟨rfl, hlength, salt, loaded_serialized ?_⟩
    rw [hdisk, foldl_inr, Written.content hwritten hreplaced]

end Files

/-! ### Constructing -/

/-- What an operation of the constructor may answer: it fails, or says what is on the disk. -/
def authAnswers (d : Disk) : (o : authCalls.Op) → authCalls.Answer o → Prop
  | .inl _, _ => True
  | .inr o, answer => Reports d o answer

def authWorld : World authCalls Disk where
  answers o d answer d' := authAnswers d o answer ∧ d' = performAuth d ⟨o, answer⟩
  cut _ _ _ := False
  dies _ := False

/-- The constructor has returned a store with this record. -/
def Constructed (pbkdf2 : Pbkdf2) (stateDirectory : Bytes) (d : Disk) (record : Record)
    (d' : Disk) : Prop :=
  (construct pbkdf2 stateDirectory).Runs authWorld d (some (some record)) d'

section Constructor

variable {α : Type} {Q : α → Disk → Prop} {pbkdf2 : Pbkdf2} {stateDirectory path : Bytes}
  {d d' : Disk} {record record' : Record}

theorem ensures_auth {o : authCalls.Op} {k : authCalls.Answer o → Prog authCalls α}
    (h : ∀ answer, authAnswers d o answer →
      (k answer).Ensures authWorld (fun _ => True) Q (performAuth d ⟨o, answer⟩)) :
    (Prog.call o k).Ensures authWorld (fun _ => True) Q d := by
  refine ⟨fun _ => trivial, fun _ _ => trivial, ?_⟩
  rintro answer d' ⟨hanswer, rfl⟩
  exact h answer hanswer

theorem ensures_returned {a : α} (h : Q a d) :
    (Prog.done a).Ensures authWorld (fun _ => True) Q d := ⟨fun _ => trivial, h⟩

/-- A part of the constructor, by what holds behind it. -/
theorem ensures_then {β : Type} {p : Prog authCalls β} {f : β → Prog authCalls α}
    {R : β → Disk → Prop} (hp : p.Ensures authWorld (fun _ => True) R d)
    (hf : ∀ b d', R b d' → (f b).Ensures authWorld (fun _ => True) Q d') :
    (p >>= f).Ensures authWorld (fun _ => True) Q d :=
  Prog.ensures_bind (Prog.ensures_mono (fun _ h => h) hf hp)

theorem readState_ensures (path : Bytes) (maxBytes : ℕ) (d : Disk) :
    (readState path maxBytes).Ensures authWorld (fun _ => True)
      (fun contents d' => d' = d ∧ ∀ text, contents = some text →
        d.content path = some text ∧ text.length ≤ maxBytes) d := by
  refine ensures_auth fun (size : Option ℕ) _ => ?_
  cases size with
  | none => exact ensures_returned ⟨rfl, by simp⟩
  | some size =>
    show (if maxBytes < size then _ else _ : Prog authCalls (Option Bytes)).Ensures _ _ _ _
    split_ifs
    · exact ensures_returned ⟨rfl, by simp⟩
    refine ensures_auth fun (contents : Option Bytes) hcontents => ?_
    cases contents with
    | none => exact ensures_returned ⟨rfl, by simp⟩
    | some contents =>
      refine ensures_returned ⟨rfl, fun text htext => ?_⟩
      rw [Option.ite_none_left_eq_some] at htext
      obtain ⟨hshort, heq⟩ := htext
      obtain rfl := Option.some.inj heq
      refine ⟨?_, Nat.not_lt.mp hshort⟩
      rcases hcontents with hnone | hsome
      · cases hnone
      · exact hsome.symm

theorem ensurePrivateFile_ensures (path : Bytes) (d : Disk) :
    (ensurePrivateFile path).Ensures authWorld (fun _ => True) (fun _ d' => d' = d) d := by
  refine ensures_auth fun (isPrivate : Option Bool) _ => ?_
  match isPrivate with
  | none => exact ensures_returned rfl
  | some true => exact ensures_returned rfl
  | some false => exact ensures_auth fun (moded : Bool) _ => ensures_returned rfl

theorem ensurePrivateDirectory_ensures (d : Disk) :
    ensurePrivateDirectory.Ensures authWorld (fun _ => True) (fun _ d' => d' = d) d := by
  refine ensures_auth fun (created : Bool) _ => ?_
  cases created with
  | false => exact ensures_returned rfl
  | true =>
    refine ensures_auth fun (directory : Bool) _ => ?_
    cases directory with
    | false => exact ensures_returned rfl
    | true => exact ensures_auth fun (moded : Bool) _ => ensures_returned rfl

theorem writeAtomic_ensures (path contents : Bytes) (d : Disk) :
    (writeAtomic path contents).Ensures authWorld (fun _ => True)
      (fun complete d' => complete = true → d'.content path = some contents) d := by
  refine Prog.ensures_of_runs fun r d' hruns => ?_
  cases r with
  | none => trivial
  | some complete =>
    have heffect : ∀ o s a s', authWorld.answers o s a s' → s' = performAuth s ⟨o, a⟩ := by
      rintro o s a s' ⟨-, heq⟩
      exact heq
    obtain ⟨trace, hexec, rfl⟩ := hruns.exec heffect
    rintro rfl
    obtain ⟨acts, rfl, hwritten, hreplaces, -⟩ := writeAtomic_written hexec d
    rw [foldl_inr]
    exact Written.content hwritten (hreplaces rfl)

theorem openExisting_ensures (stateDirectory : Bytes) (d : Disk) :
    (openExisting stateDirectory).Ensures authWorld (fun _ => True)
      (fun opened d' => d' = d ∧ ∀ record, opened = some record →
        Loaded stateDirectory d record) d := by
  refine ensures_then (readState_ensures _ 4096 d) ?_
  rintro json d' ⟨rfl, hjson⟩
  split
  · exact ensures_returned ⟨rfl, by simp⟩
  next record hload =>
  obtain ⟨text, htext, hrecord⟩ := Option.bind_eq_some_iff.mp hload
  obtain ⟨hcontent, hshort⟩ := hjson text htext
  have hloaded : ∀ record', some record = some record' → Loaded stateDirectory d' record' := by
    intro record' heq
    obtain rfl := Option.some.inj heq
    exact ⟨text, hcontent, hshort, hrecord⟩
  refine ensures_then (ensurePrivateFile_ensures _ d') ?_
  rintro ensured d rfl
  cases ensured with
  | false => exact ensures_returned ⟨rfl, by simp⟩
  | true =>
    refine ensures_auth fun (bootstrapExists : Option Bool) _ => ?_
    show (if bootstrapExists ≠ some true then _ else _ : Prog authCalls _).Ensures _ _ _ _
    split_ifs
    · exact ensures_returned ⟨rfl, hloaded⟩
    refine ensures_then (ensurePrivateFile_ensures _ _) ?_
    rintro ensured d' rfl
    cases ensured with
    | false => exact ensures_returned ⟨rfl, by simp⟩
    | true => exact ensures_returned ⟨rfl, hloaded⟩

theorem createStore_ensures (pbkdf2 : Pbkdf2) (stateDirectory : Bytes) (d : Disk) :
    (createStore pbkdf2 stateDirectory).Ensures authWorld (fun _ => True)
      (fun created d' => ∀ record, created = some record → Loaded stateDirectory d' record) d := by
  refine ensures_then (R := fun _ _ => True) ?_ ?_
  · exact Prog.ensures_of_runs fun r d' _ => by cases r <;> trivial
  rintro password d' -
  cases password with
  | none => exact ensures_returned (by simp)
  | some password =>
    refine ensures_auth fun (salt : Option (Vector UInt8 kSaltBytes)) _ => ?_
    cases salt with
    | none => exact ensures_returned (by simp)
    | some salt =>
      refine ensures_then (writeAtomic_ensures _ _ _) ?_
      intro complete d'' hcontent
      refine ensures_returned fun record hrecord => ?_
      obtain ⟨hcomplete, heq⟩ := Option.ite_none_right_eq_some.mp hrecord
      obtain rfl := Option.some.inj heq
      exact loaded_serialized (hcontent hcomplete)

/-- A constructor that returns has the record of the file, which it has not touched if it was
there. -/
theorem construct_ensures (pbkdf2 : Pbkdf2) (stateDirectory : Bytes) (d : Disk) :
    (construct pbkdf2 stateDirectory).Ensures authWorld (fun _ => True)
      (fun opened d' => ∀ record, opened = some record → Loaded stateDirectory d' record ∧
        ((d.content (authPath stateDirectory)).isSome = true → d' = d)) d := by
  refine ensures_then (ensurePrivateDirectory_ensures d) ?_
  rintro prepared d' rfl
  cases prepared with
  | false => exact ensures_returned (by simp)
  | true =>
    refine ensures_auth fun (authExists : Option Bool) hexists => ?_
    match authExists with
    | none => exact ensures_returned (by simp)
    | some true =>
      refine Prog.ensures_mono (fun _ h => h) ?_ (openExisting_ensures stateDirectory d')
      rintro opened d ⟨rfl, hopened⟩ record hrecord
      exact ⟨hopened record hrecord, fun _ => rfl⟩
    | some false =>
      refine Prog.ensures_mono (fun _ h => h) ?_ (createStore_ensures pbkdf2 stateDirectory d')
      rintro created d hcreated record hrecord
      refine ⟨hcreated record hrecord, fun hpresent => ?_⟩
      obtain hnone | hsome := hexists
      · cases hnone
      · rw [hpresent] at hsome
        cases hsome

theorem constructed_loaded (h : Constructed pbkdf2 stateDirectory d record d') :
    Loaded stateDirectory d' record :=
  ((construct_ensures pbkdf2 stateDirectory d).sound h record rfl).1

/-- A store opened on the file of a record has that record. -/
theorem constructed_of_loaded (hloaded : Loaded stateDirectory d record)
    (h : Constructed pbkdf2 stateDirectory d record' d') : record' = record := by
  obtain ⟨hrecord, hkept⟩ := (construct_ensures pbkdf2 stateDirectory d).sound h record' rfl
  obtain ⟨json, hjson, -, -⟩ := id hloaded
  obtain rfl := hkept (by rw [hjson]; rfl)
  exact hloaded.unique hrecord

/-- The disk as surroundings of a constructor in which nothing fails. -/
def workingAuth : Env authCalls Disk where
  answer d
    | .inl (.isPrivate _) => (some true, d)
    | .inl (.chmod _) => (true, d)
    | .inl (.randomBytes _) => (none, d)
    | .inr (.inl (.present path)) => (some (d.content path).isSome, d)
    | .inr (.inl (.isSymlink _)) => (some false, d)
    | .inr (.inl (.isRegularFile path)) => (some (d.content path).isSome, d)
    | .inr (.inr call) => workingDisk.answer d call

theorem workingAuth_answers (d : Disk) (o : authCalls.Op) :
    authWorld.answers o d (workingAuth.answer d o).1 (workingAuth.answer d o).2 := by
  match o with
  | .inl (.isPrivate _) => exact ⟨trivial, rfl⟩
  | .inl (.chmod _) => exact ⟨trivial, rfl⟩
  | .inl (.randomBytes _) => exact ⟨trivial, rfl⟩
  | .inr (.inl (.present path)) => exact ⟨.inr rfl, rfl⟩
  | .inr (.inl (.isSymlink path)) => exact ⟨by simp [workingAuth, authAnswers, Reports], rfl⟩
  | .inr (.inl (.isRegularFile path)) =>
    exact ⟨by simp [workingAuth, authAnswers, Reports], rfl⟩
  | .inr (.inr call) =>
    refine ⟨?_, rfl⟩
    cases call with
    | fileSize name => exact .inr rfl
    | readFile name => exact .inr rfl
    | _ => trivial

theorem openExisting_eval (hloaded : Loaded stateDirectory d record) :
    (openExisting stateDirectory).evalIn workingAuth d = (some record, d) := by
  obtain ⟨json, hjson, hshort, hload⟩ := hloaded
  have hread : (readState (authPath stateDirectory) 4096).evalIn workingAuth d = (some json, d) := by
    simp [readState, onFile, Prog.evalIn, workingAuth, workingDisk, workingAnswer, perform, hjson,
      Nat.not_lt.mpr hshort]
  have hprivate : ∀ path, (ensurePrivateFile path).evalIn workingAuth d = (true, d) := fun _ => rfl
  rw [openExisting, Prog.evalIn_bind, hread]
  simp only [Option.bind_some, hload]
  rw [Prog.evalIn_bind, hprivate]
  show (if some (d.content (bootstrapPath stateDirectory)).isSome ≠ some true then
      Prog.done (some record) else _ : Prog authCalls _).evalIn workingAuth d = _
  split_ifs
  · rfl
  · rw [Prog.evalIn_bind, hprivate]
    rfl

theorem exists_constructed (pbkdf2 : Pbkdf2) (hloaded : Loaded stateDirectory d record) :
    Constructed pbkdf2 stateDirectory d record d := by
  have hruns := Prog.runs_evalIn workingAuth_answers (construct pbkdf2 stateDirectory) d
  have hstart : (construct pbkdf2 stateDirectory).evalIn workingAuth d = (some record, d) := by
    obtain ⟨json, hjson, -, -⟩ := id hloaded
    have hexists : (construct pbkdf2 stateDirectory).evalIn workingAuth d =
        (match some (d.content (authPath stateDirectory)).isSome with
        | none => Prog.done none
        | some true => openExisting stateDirectory
        | some false => createStore pbkdf2 stateDirectory).evalIn workingAuth d := rfl
    rw [hexists, hjson]
    exact openExisting_eval hloaded
  rw [hstart] at hruns
  exact hruns

end Constructor

/-! ### Memory and disk -/

/-- The calls served, with the record and the disk around each of them. -/
abbrev AuthServed (ι : Type) :=
  Monitor.Served authCalls ι Record Disk (Bytes × Bytes) (Option PasswordChangeResult)

/-- A store can be opened on the directory, and any that is accepts what this one accepts. -/
def Agrees (pbkdf2 : Pbkdf2) (stateDirectory : Bytes) (x : Record × Disk) : Prop :=
  (∃ record d', Constructed pbkdf2 stateDirectory x.2 record d') ∧
    ∀ record d', Constructed pbkdf2 stateDirectory x.2 record d' → ∀ username password,
      verifyPassword pbkdf2 record username password = verifyPassword pbkdf2 x.1 username password

/-- The call does not lose the directory behind the rename of the file. -/
def Settled (stateDirectory : Bytes) {ι : Type} (served : AuthServed ι) : Prop :=
  ¬ SyncLost (authPath stateDirectory) (fileActs served.trace)

section Runs

variable {pbkdf2 : Pbkdf2} {stateDirectory : Bytes} {d₀ d : Disk} {record record' : Record}
  {current new : Bytes} {trace : Trace authCalls} {ι : Type} {served : List (AuthServed ι)}
  {start final : Record × Disk}

theorem Loaded.agrees (pbkdf2 : Pbkdf2) (h : Loaded stateDirectory d record) :
    Agrees pbkdf2 stateDirectory (record, d) := by
  refine ⟨⟨record, d, exists_constructed pbkdf2 h⟩, fun record' d' hopened username password => ?_⟩
  rw [constructed_of_loaded h hopened]

/-- As long as no call loses the directory, the file stays that of the record. -/
theorem loaded_throughout (hstart : Loaded stateDirectory start.2 start.1)
    (hrun : (authStore pbkdf2 stateDirectory).Serial performAuth start served final)
    (hsettled : ∀ s ∈ served, Settled stateDirectory s) : Loaded stateDirectory final.2 final.1 := by
  induction hrun with
  | start => exact hstart
  | serve _ client request exec ih =>
    rw [List.forall_mem_append, List.forall_mem_singleton] at hsettled
    exact (change_loaded (ih hsettled.1) exec hsettled.2).1

/-- After each call of a run in which none loses the directory behind the rename, a store opened
on the same directory accepts the same passwords, and a call that has not succeeded leaves them
as they were. -/
theorem memory_and_disk_agree (hstart : Constructed pbkdf2 stateDirectory d₀ record d)
    (hrun : (authStore pbkdf2 stateDirectory).Serial performAuth (record, d) served final)
    (hsettled : ∀ s ∈ served, Settled stateDirectory s) :
    ∀ s ∈ served, Agrees pbkdf2 stateDirectory s.after ∧
      (s.result ≠ some .changed → ∀ username password,
        verifyPassword pbkdf2 s.after.1 username password =
          verifyPassword pbkdf2 s.before.1 username password) := by
  intro s hs
  obtain ⟨first, second, rfl⟩ := List.append_of_mem hs
  obtain ⟨hbefore, -, hdisk, hexec⟩ := hrun.cut
  have hearlier : ∀ s' ∈ first, Settled stateDirectory s' := fun s' hs' =>
    hsettled s' (List.mem_append_left _ hs')
  have hloaded := loaded_throughout (constructed_loaded hstart) hbefore hearlier
  obtain ⟨hafter, hkept⟩ := change_loaded hloaded hexec (hsettled s hs)
  rw [← hdisk] at hafter
  refine ⟨hafter.agrees pbkdf2, fun hresult username password => ?_⟩
  rw [hkept hresult]

theorem verifyPassword_newRecord {iterations : UInt32} {range : InRange iterations}
    {salt : Vector UInt8 kSaltBytes} (hlength : new.length ≤ kMaxPasswordBytes) :
    verifyPassword pbkdf2 (newRecord pbkdf2 iterations range salt new) (ascii "admin") new = true := by
  rw [verifyPassword, if_neg]
  · exact decide_eq_true rfl
  · rintro (hname | hlong)
    · exact hname rfl
    · omega

/-- Where the directory is lost, memory and disk part, unless the old record takes the new
password too. -/
theorem lost_disagrees
    (h : (change pbkdf2 stateDirectory record current new).Exec trace
      (some .storageError, record'))
    (hreplaced : Replaces (authPath stateDirectory) (fileActs trace))
    (hold : verifyPassword pbkdf2 record (ascii "admin") new = false) (d : Disk) :
    ¬ Agrees pbkdf2 stateDirectory (record', trace.foldl performAuth d) := by
  obtain ⟨rfl, hlength, salt, hloaded⟩ := change_lost h hreplaced d
  rintro ⟨-, hsame⟩
  have hopened := hsame _ _ (exists_constructed pbkdf2 hloaded) (ascii "admin") new
  rw [verifyPassword_newRecord hlength, hold] at hopened
  cases hopened

end Runs

/-! ### One change of the password -/

section Sample

/-- The operations of a write, with what the directory answers behind the rename. -/
def writtenTrace (path contents : Bytes) (synced : Bool) : Trace fileCalls :=
  [⟨.openTruncated (path ++ kTemporary), some 3⟩, ⟨.fchmod 3, true⟩,
    ⟨.write 3 contents, some contents.length⟩, ⟨.fsync 3, true⟩, ⟨.close 3, true⟩] ++
    ⟨.rename (path ++ kTemporary) path, true⟩ ::
      if synced then [⟨.openDirectory, some 4⟩, ⟨.fsync 4, true⟩, ⟨.close 4, true⟩]
      else [⟨.openDirectory, (none : Option ℕ)⟩, ⟨.unlink (path ++ kTemporary), false⟩]

variable {path contents : Bytes} {closes : WriteStep → Bool}

theorem writtenTrace_exec (h : contents ≠ []) (synced : Bool) :
    (replaceFile closes path contents).Exec (writtenTrace path contents synced) synced := by
  refine Prog.exec_call.mpr ⟨some 3, _, rfl, ?_⟩
  refine Prog.exec_call.mpr ⟨true, _, rfl, ?_⟩
  refine (writeLoop_whole h 3).bind ?_
  refine Prog.exec_call.mpr ⟨true, _, rfl, ?_⟩
  refine Prog.exec_call.mpr ⟨true, _, rfl, ?_⟩
  refine Prog.exec_call.mpr ⟨true, _, rfl, ?_⟩
  cases synced with
  | true => exact Config.synced_exec.bind (.done true)
  | false =>
    have hlost : syncDirectory.Exec [⟨.openDirectory, (none : Option ℕ)⟩] false :=
      Prog.exec_call.mpr ⟨none, _, rfl, .done false⟩
    exact hlost.bind (Prog.exec_call.mpr ⟨false, _, rfl, .done false⟩)

theorem writtenTrace_replaces (synced : Bool) : Replaces path (writtenTrace path contents synced) :=
  List.mem_append_right _ List.mem_cons_self

/-- A file that is replaced once, with a directory that is synced, is not lost. -/
theorem writtenTrace_settled {rest : Trace fileCalls} (hrest : ¬ Replaces path rest) :
    ¬ SyncLost path (writtenTrace path contents true ++ rest) := by
  rintro ⟨before, after, heq, hfails⟩
  have hsplit : writtenTrace path contents true ++ rest =
      [⟨.openTruncated (path ++ kTemporary), some 3⟩, ⟨.fchmod 3, true⟩,
        ⟨.write 3 contents, some contents.length⟩, ⟨.fsync 3, true⟩, ⟨.close 3, true⟩] ++
          ⟨.rename (path ++ kTemporary) path, true⟩ ::
            ([⟨.openDirectory, some 4⟩, ⟨.fsync 4, true⟩, ⟨.close 4, true⟩] ++ rest) := rfl
  rw [hsplit] at heq
  obtain ⟨mid, rfl, hbehind⟩ | ⟨rfl, -, rfl⟩ | ⟨mid, hbefore, -⟩ := cut_cases heq
  · have hmem : Replaces path ([⟨.openDirectory, some 4⟩, ⟨.fsync 4, true⟩, ⟨.close 4, true⟩] ++
        rest) := hbehind ▸ List.mem_append_right _ List.mem_cons_self
    simp only [Replaces, List.mem_append, List.mem_cons, List.not_mem_nil, or_false] at hmem hrest
    simp_all
  · cases hfails
  · have hmem := List.mem_append_right before (@List.mem_cons_self _
      (⟨.rename (path ++ kTemporary) path, true⟩ : Act fileCalls) mid)
    rw [← hbefore] at hmem
    simp at hmem

/-- A derivation to look at runs with: the beginning of the password. -/
def takeBytes : Pbkdf2 := fun password _ _ => Vector.ofFn fun i => password.getD i 0

def sampleDirectory : Bytes := ascii "auth"

def zeroSalt : Vector UInt8 kSaltBytes := Vector.replicate kSaltBytes 0

def newPassword : Bytes := ascii "correct horse"

def passwordRecord (password : Bytes) : Record :=
  newRecord takeBytes kPasswordIterations kPasswordIterations_inRange zeroSalt password

/-- A disk with the file of the first password. -/
def firstDisk : Disk where
  content := Function.update (fun _ => none) (authPath sampleDirectory)
    (some (serializeRecord (passwordRecord (ascii "admin"))))

/-- What follows a write: the removal of the first password, which is not there. -/
def removalTrace (synced : Bool) : Trace fileCalls :=
  if synced then [⟨.remove (bootstrapPath sampleDirectory), some false⟩, ⟨.openDirectory, some 4⟩,
    ⟨.fsync 4, true⟩, ⟨.close 4, true⟩]
  else []

def changeTrace (synced : Bool) : Trace authCalls :=
  ⟨.inl (.randomBytes kSaltBytes), some zeroSalt⟩ ::
    ((writtenTrace (authPath sampleDirectory) (serializeRecord (passwordRecord newPassword)) synced ++
      removalTrace synced).map Act.inr).map Act.inr

/-- A change of the first password, with what the directory answers behind the rename. -/
def changeCall (synced : Bool) : AuthServed Unit where
  client := ()
  request := (ascii "admin", newPassword)
  before := (passwordRecord (ascii "admin"), firstDisk)
  trace := changeTrace synced
  result := some (if synced then .changed else .storageError)
  after := (if synced then passwordRecord newPassword else passwordRecord (ascii "admin"),
    (changeTrace synced).foldl performAuth firstDisk)

theorem firstDisk_constructed : Constructed takeBytes sampleDirectory firstDisk
    (passwordRecord (ascii "admin")) firstDisk := by
  have hcontent : firstDisk.content (authPath sampleDirectory) =
      some (serializeRecord (passwordRecord (ascii "admin"))) := by
    simp only [firstDisk, Function.update_self]
  exact exists_constructed takeBytes (loaded_serialized hcontent)

theorem removal_exec : (removeFileBestEffort (bootstrapPath sampleDirectory)).Exec
    (((removalTrace true).map Act.inr).map Act.inr) () := by
  refine Prog.exec_call.mpr ⟨some false, _, rfl, ?_⟩
  have hsync : (syncDirectory.inr.inr : Prog authCalls Bool).Exec _ true :=
    Prog.exec_inr.mpr ⟨_, Prog.exec_inr.mpr ⟨_, Config.synced_exec, rfl⟩, rfl⟩
  exact hsync.bind (.done ())

theorem changeCall_exec (synced : Bool) :
    (change takeBytes sampleDirectory (passwordRecord (ascii "admin")) (ascii "admin") newPassword).Exec
      (changeTrace synced) (some (if synced then .changed else .storageError),
        if synced then passwordRecord newPassword else passwordRecord (ascii "admin")) := by
  have hlength : ¬ (newPassword.length < 12 ∨ kMaxPasswordBytes < newPassword.length ∨
      kMaxPasswordBytes < (ascii "admin").length ∨ newPassword = ascii "admin") := by decide
  have hverify : verifyPassword takeBytes (passwordRecord (ascii "admin")) (ascii "admin")
      (ascii "admin") = true := verifyPassword_newRecord (by decide)
  rw [change, if_neg hlength, hverify]
  refine Prog.exec_call.mpr ⟨some zeroSalt, _, rfl, ?_⟩
  have hwrite : (writeAtomic (authPath sampleDirectory)
      (serializeRecord (passwordRecord newPassword))).Exec _ synced :=
    Prog.exec_inr.mpr ⟨_, Prog.exec_inr.mpr
      ⟨_, writtenTrace_exec (serializeRecord_ne_nil _) synced, rfl⟩, rfl⟩
  rw [List.map_append, List.map_append]
  refine hwrite.bind ?_
  cases synced with
  | false => exact .done _
  | true =>
    rw [← List.append_nil (((removalTrace true).map Act.inr).map Act.inr)]
    exact removal_exec.bind (.done _)

theorem changeCall_serial (synced : Bool) :
    (authStore takeBytes sampleDirectory).Serial performAuth (passwordRecord (ascii "admin"), firstDisk)
      [changeCall synced] (changeCall synced).after := by
  have hdisk : (changeCall synced).after.2 =
      (changeCall synced).trace.foldl performAuth (changeCall synced).before.2 := by
    simp only [changeCall]
  have hexec : ((authStore takeBytes sampleDirectory).method (changeCall synced).before.1
      (changeCall synced).request).Exec (changeCall synced).trace
        ((changeCall synced).result, (changeCall synced).after.1) := by
    simp only [changeCall, authStore]
    exact changeCall_exec synced
  exact Monitor.serial_singleton.mpr ⟨rfl, rfl, hdisk, hexec⟩

theorem changeTrace_acts (synced : Bool) : fileActs (changeTrace synced) =
    writtenTrace (authPath sampleDirectory) (serializeRecord (passwordRecord newPassword)) synced ++
      removalTrace synced := fileActs_inr _

theorem changed_agrees : Agrees takeBytes sampleDirectory (changeCall true).after ∧
    ((changeCall true).result ≠ some .changed → ∀ username password,
      verifyPassword takeBytes (changeCall true).after.1 username password =
        verifyPassword takeBytes (changeCall true).before.1 username password) := by
  refine memory_and_disk_agree firstDisk_constructed (changeCall_serial true) ?_ _
    List.mem_cons_self
  rw [List.forall_mem_singleton]
  show ¬ SyncLost (authPath sampleDirectory) (fileActs (changeTrace true))
  rw [changeTrace_acts]
  exact writtenTrace_settled (by simp [Replaces, removalTrace])

/-- The directory cannot be opened behind the rename: the call reports that nothing was stored, and
a store that is opened afterwards has the new password. -/
theorem unsynced_change_disagrees :
    Constructed takeBytes sampleDirectory firstDisk (passwordRecord (ascii "admin")) firstDisk ∧
      (authStore takeBytes sampleDirectory).Serial performAuth
        (passwordRecord (ascii "admin"), firstDisk) [changeCall false] (changeCall false).after ∧
      (changeCall false).result = some .storageError ∧
      ¬ Agrees takeBytes sampleDirectory (changeCall false).after := by
  refine ⟨firstDisk_constructed, changeCall_serial false, rfl, ?_⟩
  refine lost_disagrees (changeCall_exec false) ?_ (by decide) firstDisk
  rw [changeTrace_acts]
  exact List.mem_append_left _ (writtenTrace_replaces false)

end Sample

end Uhf.Web.Auth
