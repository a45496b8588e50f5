/-
The configuration file and the object that keeps it (`ConfigStore`).

`construct` is the constructor; `update` and `setIecIedName` are the calls that change the
configuration.  Both hold the mutex of the object from their beginning to their end, so the
object is a `Monitor` whose memory is its `snapshot_`.

* `writeAtomic_heeds` — what `write_atomic` has done to the disk at each of its operations;
* `writeAtomic_outcome` — and when it returns.
-/
import UhfGateway.Config.Codec
import UhfGateway.Effects.Layer
import UhfGateway.Effects.Monitor
import UhfGateway.Storage.FileEffects

namespace Uhf.Config

open Effects Posix Posix.Disk Storage

/-! ### Operations -/

/-- What `std::filesystem` says about a path. -/
inductive LookCall
  | present (path : Bytes)
  | isRegularFile (path : Bytes)

/-- `none` is an error. -/
@[reducible] def lookCalls : Interface where
  Op := LookCall
  Answer _ := Option Bool

abbrev configCalls := Interface.sum lookCalls fileCalls

/-! ### Writing -/

/-- The end of a write that has come as far as the directory. -/
def syncDirectory : Prog fileCalls Bool :=
  .call (I := fileCalls) .openDirectory fun (directory : Option ℕ) =>
    match directory with
    | none => .done false
    | some descriptor =>
      .call (I := fileCalls) (.fsync descriptor) fun (synced : Bool) =>
        .call (I := fileCalls) (.close descriptor) fun _ => .done synced

theorem synced_exec : syncDirectory.Exec
    [⟨.openDirectory, some 4⟩, ⟨.fsync 4, true⟩, ⟨.close 4, true⟩] true := by
  refine Prog.exec_call.mpr ⟨some 4, _, rfl, ?_⟩
  refine Prog.exec_call.mpr ⟨true, _, rfl, ?_⟩
  exact Prog.exec_call.mpr ⟨true, _, rfl, .done _⟩

/-- The end of a write that fails before. -/
def abandon (temporary : Bytes) (descriptor : ℕ) : Prog fileCalls Bool :=
  .call (I := fileCalls) (.close descriptor) fun _ =>
    .call (I := fileCalls) (.unlink temporary) fun _ => .done false

/-- `write_atomic` once the temporary file is open. -/
def finishWrite (path contents : Bytes) (descriptor : ℕ) : Prog fileCalls Bool :=
  let temporary := path ++ kTemporary
  writeLoop descriptor contents >>= fun complete =>
    if !complete then abandon temporary descriptor
    else .call (I := fileCalls) (.fchmod descriptor) fun (moded : Bool) =>
      if !moded then abandon temporary descriptor
      else .call (I := fileCalls) (.fsync descriptor) fun (synced : Bool) =>
        if !synced then abandon temporary descriptor
        else .call (I := fileCalls) (.close descriptor) fun (closed : Bool) =>
          if !closed then abandon temporary descriptor
          else .call (I := fileCalls) (.rename temporary path) fun (renamed : Bool) =>
            if !renamed then abandon temporary descriptor
            else syncDirectory

def writeAtomic (path contents : Bytes) : Prog fileCalls Bool :=
  .call (I := fileCalls) (.openTruncated (path ++ kTemporary)) fun (opened : Option ℕ) =>
    match opened with
    | none => .done false
    | some descriptor => finishWrite path contents descriptor

/-! ### Reading -/

def readFile (path : Bytes) : Prog configCalls (Option Bytes) :=
  .call (I := configCalls) (.inl (.present path)) fun (present : Option Bool) =>
    if present ≠ some true then .done none
    else .call (I := configCalls) (.inl (.isRegularFile path)) fun (regular : Option Bool) =>
      if regular ≠ some true then .done none
      else .call (I := configCalls) (.inr (.fileSize path)) fun (size : Option ℕ) =>
        match size with
        | none => .done none
        | some size =>
          if kMaxConfigBytes < size then .done none
          else .call (I := configCalls) (.inr (.readFile path)) fun (contents : Option Bytes) =>
            match contents with
            | none => .done none
            | some contents =>
              .done (if kMaxConfigBytes < contents.length then none else some contents)

/-- The snapshot in the contents of a file; the constructor throws if there is none. -/
def load (contents : Bytes) : Option Snapshot :=
  (parseValues contents).bind fun loaded =>
    if !validate loaded then none
    else (parseVersion contents).map fun version => ⟨version, loaded⟩

/-- What a constructor without a configuration file starts from; `none` if it throws. -/
def loadDefaults (defaultsFile : Bytes) : Prog configCalls (Option Snapshot) :=
  if defaultsFile = [] then .done (some {})
  else
    .call (I := configCalls) (.inl (.present defaultsFile)) fun (present : Option Bool) =>
      match present with
      | none => .done none
      | some false => .done (some {})
      | some true =>
        readFile defaultsFile >>= fun defaults =>
          match defaults with
          | none => .done none
          | some defaults => .done (if defaults.isEmpty then none else load defaults)

/-- The end of the constructor, once it has found out whether the file exists. -/
def openStore (file defaultsFile : Bytes) (present : Bool) : Prog configCalls (Option Snapshot) :=
  if present then
    readFile file >>= fun contents =>
      .done (contents.bind load)
  else
    loadDefaults defaultsFile >>= fun snapshot =>
      match snapshot with
      | none => .done none
      | some snapshot =>
        (writeAtomic file (serialize snapshot)).inr >>= fun written =>
          .done (if written then some snapshot else none)

/-- The constructor; `none` if it throws. -/
def construct (file defaultsFile : Bytes) : Prog configCalls (Option Snapshot) :=
  .call (I := configCalls) (.inr .createDirectories) fun (created : Bool) =>
    if !created then .done none
    else .call (I := configCalls) (.inr .isDirectory) fun (directory : Bool) =>
      if !directory then .done none
      else .call (I := configCalls) (.inr .chmodDirectory) fun (moded : Bool) =>
        if !moded then .done none
        else .call (I := configCalls) (.inl (.present file)) fun (present : Option Bool) =>
          match present with
          | none => .done none
          | some present => openStore file defaultsFile present

/-! ### Changing -/

inductive UpdateResult
  | updated | invalid | conflict | storageError
  deriving DecidableEq

/-- A call with what it takes. -/
inductive ConfigCall
  | update (expectedVersion : UInt64) (objectJson : Bytes)
  | setIecIedName (iedName : Bytes)

/-- What a call returns. -/
inductive ConfigResult
  | update (result : UpdateResult)
  | setIecIedName (complete : Bool)
  deriving DecidableEq

/-- The end of a call: what it returns if the candidate has been stored, and if not. -/
def store (file : Bytes) (snapshot candidate : Snapshot) (stored failed : ConfigResult) :
    Prog fileCalls (ConfigResult × Snapshot) :=
  writeAtomic file (serialize candidate) >>= fun written =>
    .done (if written then (stored, candidate) else (failed, snapshot))

def update (file : Bytes) (snapshot : Snapshot) (expectedVersion : UInt64) (objectJson : Bytes) :
    Prog fileCalls (ConfigResult × Snapshot) :=
  if expectedVersion ≠ snapshot.version then .done (.update .conflict, snapshot)
  else
    match parseValues objectJson with
    | none => .done (.update .invalid, snapshot)
    | some values =>
      if !validate values then .done (.update .invalid, snapshot)
      else
        store file snapshot ⟨snapshot.version + 1, values⟩ (.update .updated)
          (.update .storageError)

def setIecIedName (file : Bytes) (snapshot : Snapshot) (iedName : Bytes) :
    Prog fileCalls (ConfigResult × Snapshot) :=
  if !validIedName iedName then .done (.setIecIedName false, snapshot)
  else if snapshot.values.iecIedName = iedName then .done (.setIecIedName true, snapshot)
  else
    store file snapshot
      ⟨snapshot.version + 1, { snapshot.values with iecIedName := iedName }⟩
      (.setIecIedName true) (.setIecIedName false)

/-- The object on a configuration file. -/
def configStore (file : Bytes) : Monitor fileCalls Snapshot ConfigCall ConfigResult where
  method snapshot
    | .update expectedVersion objectJson => update file snapshot expectedVersion objectJson
    | .setIecIedName iedName => setIecIedName file snapshot iedName

/-! ### What a write does -/

/-- The new file has taken the place of the old one. -/
def Replaces (path : Bytes) (trace : Trace fileCalls) : Prop :=
  (⟨.rename (path ++ kTemporary) path, true⟩ : Act fileCalls) ∈ trace

/-- The write ends with a directory that cannot be opened or synced. -/
def DirectoryLost (trace : Trace fileCalls) : Prop :=
  match trace.reverse with
  | ⟨.openDirectory, (directory : Option ℕ)⟩ :: _ => directory = none
  | ⟨.close _, _⟩ :: ⟨.fsync _, (synced : Bool)⟩ :: _ => synced = false
  | _ => False

/-- What a write has done to the disk: the file is as it was, or it holds the new contents, and
no other file but the temporary one has changed. -/
inductive Written (d : Disk) (path contents : Bytes) (trace : Trace fileCalls) : Prop
  | kept (hrename : ¬ Replaces path trace)
      (beside : (after d trace).Beside (path ++ kTemporary) d.content)
  | replaced (hrename : Replaces path trace)
      (beside : (after d trace).Beside (path ++ kTemporary)
        (Function.update d.content path (some contents)))

section Writing

variable {d : Disk} {path contents : Bytes} {descriptor : ℕ} {done : Trace fileCalls}

theorem ne_temporary (path : Bytes) : path ≠ path ++ kTemporary := by
  intro h
  have hlength := congrArg List.length h
  have hsuffix : kTemporary.length = 4 := rfl
  rw [List.length_append] at hlength
  omega

theorem not_replaces_snoc (h : ¬ Replaces path done) (act : Act fileCalls)
    (hact : act ≠ ⟨.rename (path ++ kTemporary) path, true⟩) : ¬ Replaces path (done ++ [act]) := by
  intro hmem
  rcases List.mem_append.mp hmem with hearlier | hlast
  · exact h hearlier
  · exact hact (List.mem_singleton.mp hlast).symm

/-- What a program that writes the file is judged by: at each operation and at its end the
write is whole or has not begun to show. -/
abbrev Writes (d : Disk) (path contents : Bytes) (p : Prog fileCalls Bool)
    (done : Trace fileCalls) : Prop :=
  p.Heeds (fun done _ => Written d path contents done)
    (fun complete done => Written d path contents done ∧
      (complete = true → Replaces path done ∧ ¬ DirectoryLost done) ∧
        (complete = false → Replaces path done → DirectoryLost done)) done

/-- An operation that leaves all files but the temporary one alone. -/
theorem Written.more (h : Written d path contents done) (act : Act fileCalls)
    (hact : act ≠ ⟨.rename (path ++ kTemporary) path, true⟩)
    (keeps : ∀ (d' : Disk) base, d'.Beside (path ++ kTemporary) base →
      (perform d' act).Beside (path ++ kTemporary) base) :
    Written d path contents (done ++ [act]) := by
  cases h with
  | kept hrename beside =>
    refine .kept (not_replaces_snoc hrename act hact) ?_
    rw [after_snoc]
    exact keeps _ _ beside
  | replaced hrename beside =>
    refine .replaced (List.mem_append_left _ hrename) ?_
    rw [after_snoc]
    exact keeps _ _ beside

theorem writes_syncDirectory (h : Written d path contents done) (hrename : Replaces path done) :
    Writes d path contents syncDirectory done := by
  refine ⟨h, fun (directory : Option ℕ) => ?_⟩
  have hopened := h.more ⟨.openDirectory, directory⟩ (by simp) fun _ _ hbeside => hbeside
  cases directory with
  | none =>
    refine ⟨hopened, by simp, fun _ _ => ?_⟩
    simp [DirectoryLost]
  | some descriptor =>
    refine ⟨hopened, fun (synced : Bool) => ?_⟩
    have hsynced := hopened.more ⟨.fsync descriptor, synced⟩ (by simp)
      fun _ _ hbeside => hbeside
    refine ⟨hsynced, fun (closed : Bool) => ⟨?_, ?_, ?_⟩⟩
    · exact hsynced.more _ (by simp) fun _ _ hbeside => hbeside.closed descriptor
    · rintro rfl
      constructor
      · exact List.mem_append_left _ (List.mem_append_left _ (List.mem_append_left _ hrename))
      · simp [DirectoryLost]
    · rintro rfl _
      simp [DirectoryLost]

theorem writes_abandon (h : Written d path contents done) (hrename : ¬ Replaces path done) :
    Writes d path contents (abandon (path ++ kTemporary) descriptor) done := by
  refine ⟨h, fun (closed : Bool) => ?_⟩
  have hclosed := h.more ⟨.close descriptor, closed⟩ (by simp)
    fun _ _ hbeside => hbeside.closed descriptor
  refine ⟨hclosed, fun (unlinked : Bool) => ⟨?_, by simp, fun _ hmem => ?_⟩⟩
  · refine hclosed.more _ (by simp) fun d' base hbeside => ?_
    cases unlinked with
    | false => exact hbeside
    | true => exact hbeside.removed
  · have hnot := not_replaces_snoc hrename ⟨.close descriptor, closed⟩ (by simp)
    exact absurd hmem (not_replaces_snoc hnot ⟨.unlink (path ++ kTemporary), unlinked⟩ (by simp))

theorem writes_finishWrite (h : Staging d (path ++ kTemporary) descriptor [] done)
    (hrename : ¬ Replaces path done) :
    Writes d path contents (finishWrite path contents descriptor) done := by
  refine Prog.heeds_bind ((writeLoop_heeds (fun done => ¬ Replaces path done) contents h hrename
    (fun _ _ _ hnot => not_replaces_snoc hnot _ (by simp))
    (fun _ _ _ hstaging hnot => .kept hnot hstaging.beside)).mono ?_)
  rintro complete done ⟨hrename, total, hstaging, hcomplete⟩
  have hkept : Written d path contents done := .kept hrename hstaging.beside
  cases complete with
  | false => exact writes_abandon hkept hrename
  | true =>
    have htotal : total = contents := hcomplete rfl
    rw [htotal] at hstaging
    refine ⟨hkept, fun (moded : Bool) => ?_⟩
    have hstaging := hstaging.quiet ⟨.fchmod descriptor, moded⟩ rfl
    have hrename := not_replaces_snoc hrename ⟨.fchmod descriptor, moded⟩ (by simp)
    have hkept := hkept.more ⟨.fchmod descriptor, moded⟩ (by simp) fun _ _ hbeside => hbeside
    cases moded with
    | false => exact writes_abandon hkept hrename
    | true =>
      refine ⟨hkept, fun (synced : Bool) => ?_⟩
      have hstaging := hstaging.quiet ⟨.fsync descriptor, synced⟩ rfl
      have hrename := not_replaces_snoc hrename ⟨.fsync descriptor, synced⟩ (by simp)
      have hkept := hkept.more ⟨.fsync descriptor, synced⟩ (by simp) fun _ _ hbeside => hbeside
      cases synced with
      | false => exact writes_abandon hkept hrename
      | true =>
        refine ⟨hkept, fun (closed : Bool) => ?_⟩
        have hkept := hkept.more ⟨.close descriptor, closed⟩ (by simp)
          fun _ _ hbeside => hbeside.closed descriptor
        have hrename := not_replaces_snoc hrename ⟨.close descriptor, closed⟩ (by simp)
        cases closed with
        | false => exact writes_abandon hkept hrename
        | true =>
          refine ⟨hkept, fun (renamed : Bool) => ?_⟩
          cases renamed with
          | false =>
            have hkept := hkept.more ⟨.rename (path ++ kTemporary) path, false⟩ (by simp)
              fun _ _ hbeside => hbeside
            have hrename := not_replaces_snoc hrename
              ⟨.rename (path ++ kTemporary) path, false⟩ (by simp)
            exact writes_abandon hkept hrename
          | true =>
            have hmem : Replaces path (done ++ [⟨.fchmod descriptor, true⟩] ++
                [⟨.fsync descriptor, true⟩] ++ [⟨.close descriptor, true⟩] ++
                  [⟨.rename (path ++ kTemporary) path, true⟩]) :=
              List.mem_append_right _ (List.mem_singleton_self _)
            refine writes_syncDirectory (.replaced hmem ?_) hmem
            -- the rename takes the temporary file, which is complete, to its place
            rw [after_snoc, after_snoc]
            have hbeside := hstaging.beside.closed descriptor
            exact hbeside.renamed hstaging.pending.content

theorem writes_writeAtomic (d : Disk) (path contents : Bytes) :
    Writes d path contents (writeAtomic path contents) [] := by
  have hnil : ¬ Replaces path [] := by simp [Replaces]
  refine ⟨.kept hnil (beside_refl d _), fun (opened : Option ℕ) => ?_⟩
  have hnot := not_replaces_snoc hnil ⟨.openTruncated (path ++ kTemporary), opened⟩ (by simp)
  cases opened with
  | none =>
    refine ⟨.kept hnot (beside_refl d _), by simp, fun _ hmem => ?_⟩
    exact absurd hmem hnot
  | some descriptor =>
    refine writes_finishWrite ⟨?_, ?_⟩ hnot
    · exact truncated_pending d descriptor _
    · exact (beside_refl d _).truncated descriptor

/-- The outcome of a write, whatever fails. -/
theorem writeAtomic_outcome {trace : Trace fileCalls} {complete : Bool}
    (h : (writeAtomic path contents).Exec trace complete) (d : Disk) :
    Written d path contents trace ∧ (complete = true → Replaces path trace ∧ ¬ DirectoryLost trace) ∧
      (complete = false → Replaces path trace → DirectoryLost trace) :=
  (writes_writeAtomic d path contents).outcome h

end Writing

end Uhf.Config
