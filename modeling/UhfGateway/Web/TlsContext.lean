/-
The certificate of the web server and its private key (`web/tls_context`).

The two files are written one after the other, and before they are replaced a copy of each is
kept beside it.  What OpenSSL makes of them is a parameter.

* `writeTls_ensures` — a write changes one of the four files or none;
* `ensureCertificate_ensures` — a server that starts has a pair, and what was there is untouched;
* `replace_ensures` — what a replacement leaves if no older copy is in its way;
* `replace_tears` — what it can leave otherwise;
* `replace_recoverable_iff` — when a pair is in place or the copies are those of the old one,
  whatever fails and wherever the process dies.
-/
import UhfGateway.Web.HttpServer
import UhfGateway.Web.StateFiles

namespace Uhf.Web

open Effects Posix Posix.Disk Storage
open Config (syncDirectory ne_temporary)

/-! ### The code -/

/-- What OpenSSL says of a certificate and a key: that it can use them with each other. -/
structure OpenSsl where
  usesPem : Bytes → Bytes → Bool

structure TlsPair where
  certificate : Bytes
  privateKey : Bytes
  deriving DecidableEq

structure TlsFiles where
  certificate : Bytes
  privateKey : Bytes

structure TlsContext where
  files : TlsFiles
  /-- What `context_` has been made of. -/
  context : TlsPair

def kMaxTlsBytes : ℕ := 128 * 1024

/-- `write_atomic`; a descriptor that cannot be synced is not closed. -/
def writeTls (path contents : Bytes) : Prog stateCalls Bool :=
  (replaceFile (fun step => step ≠ .fsync) path contents).inr

/-- Whether `context_from_pem` makes a context. -/
def contextFromPem (ssl : OpenSsl) (pair : TlsPair) : Bool :=
  !pair.certificate.isEmpty && !pair.privateKey.isEmpty &&
    decide (pair.certificate.length ≤ 2147483647) && decide (pair.privateKey.length ≤ 2147483647) &&
    ssl.usesPem pair.certificate pair.privateKey

/-- `read_bounded_file`; `none` if it throws. -/
def readBoundedFile (path : Bytes) : Prog stateCalls (Option Bytes) :=
  .call (I := stateCalls) (.inl (.isRegularFile path)) fun (regular : Option Bool) =>
    if regular ≠ some true then .done none
    else .call (I := stateCalls) (.inr (.fileSize path)) fun (size : Option ℕ) =>
      match size with
      | none => .done none
      | some size =>
        if kMaxTlsBytes < size then .done none
        else .call (I := stateCalls) (.inr (.readFile path)) fun (contents : Option Bytes) =>
          match contents with
          | none => .done none
          | some contents => .done (if kMaxTlsBytes < contents.length then none else some contents)

def previous (path : Bytes) : Bytes := path ++ ascii ".previous"

def backupFile (path : Bytes) : Prog stateCalls Bool :=
  readBoundedFile path >>= fun contents =>
    match contents with
    | none => .done false
    | some contents => writeTls (previous path) contents

/-- `remove_file`; that there is no such file is answered by `some false`. -/
def removeFile (path : Bytes) : Prog stateCalls Unit :=
  .call (I := stateCalls) (.inr (.remove path)) fun (removed : Option Bool) =>
    if removed.isNone then .done ()
    else syncDirectory.inr >>= fun _ => .done ()

def restoreBackup (files : TlsFiles) : Prog stateCalls Unit :=
  readBoundedFile (previous files.certificate) >>= fun certificate =>
    match certificate with
    | none => .done ()
    | some certificate =>
      readBoundedFile (previous files.privateKey) >>= fun privateKey =>
        match privateKey with
        | none => .done ()
        | some privateKey =>
          writeTls files.certificate certificate >>= fun written =>
            if !written then .done ()
            else writeTls files.privateKey privateKey >>= fun _ => .done ()

namespace TlsContext

/-- The end of a replacement in which something throws. -/
def giveBack (c : TlsContext) : Prog stateCalls (TlsReplaceResult × TlsContext) :=
  restoreBackup c.files >>= fun _ => .done (.storageError, c)

/-- The part of `replace` behind the copies. -/
def putPair (c : TlsContext) (pair : TlsPair) : Prog stateCalls (TlsReplaceResult × TlsContext) :=
  writeTls c.files.privateKey pair.privateKey >>= fun written =>
    if !written then c.giveBack
    else writeTls c.files.certificate pair.certificate >>= fun written =>
      if !written then c.giveBack
      else removeFile (previous c.files.certificate) >>= fun _ =>
        removeFile (previous c.files.privateKey) >>= fun _ =>
          .done (.replaced, { c with context := pair })

def replace (ssl : OpenSsl) (c : TlsContext) (pair : TlsPair) :
    Prog stateCalls (TlsReplaceResult × TlsContext) :=
  if !contextFromPem ssl pair then .done (.invalid, c)
  else
    backupFile c.files.certificate >>= fun kept =>
      if !kept then c.giveBack
      else backupFile c.files.privateKey >>= fun kept =>
        if !kept then c.giveBack else c.putPair pair

end TlsContext

/-- `generate_certificate`, where OpenSSL generates this pair or nothing. -/
def generateCertificate (files : TlsFiles) (generated : Option TlsPair) : Prog stateCalls Bool :=
  match generated with
  | none => .done false
  | some pair =>
    writeTls files.privateKey pair.privateKey >>= fun written =>
      if !written then .done false
      else writeTls files.certificate pair.certificate >>= fun written =>
        if written then .done true
        else .call (I := stateCalls) (.inr (.unlink files.privateKey)) fun _ => .done false

/-- `ensure_certificate`; `moded` says whether the modes of both files can be set. -/
def ensureCertificate (files : TlsFiles) (generated : Option TlsPair) (moded : Bool) :
    Prog stateCalls Bool :=
  .call (I := stateCalls) (.inl (.present files.certificate)) fun (certificate : Option Bool) =>
    .call (I := stateCalls) (.inl (.present files.privateKey)) fun (privateKey : Option Bool) =>
      match certificate, privateKey with
      | some certificateExists, some keyExists =>
        if certificateExists ≠ keyExists then .done false
        else if certificateExists then .done moded
        else generateCertificate files generated >>= fun written => .done (written && moded)
      | _, _ => .done false

/-! ### The four files -/

inductive TlsSlot
  | certificate
  | privateKey
  | certificatePrevious
  | privateKeyPrevious
  deriving DecidableEq

namespace TlsFiles

def path (files : TlsFiles) : TlsSlot → Bytes
  | .certificate => files.certificate
  | .privateKey => files.privateKey
  | .certificatePrevious => previous files.certificate
  | .privateKeyPrevious => previous files.privateKey

/-- What is at the four paths. -/
def view (files : TlsFiles) (d : Disk) : TlsSlot → Option Bytes :=
  fun slot => d.content (files.path slot)

/-- The file has got this content, or all four are as they were. -/
def Puts (files : TlsFiles) (slot : TlsSlot) (contents : Option Bytes) (d d' : Disk) : Prop :=
  files.view d' = files.view d ∨ files.view d' = Function.update (files.view d) slot contents

/-- What was there is there still. -/
def Kept (files : TlsFiles) (d d' : Disk) : Prop :=
  ∀ slot, files.view d slot ≠ none → files.view d' slot = files.view d slot

/-- No path is another one, nor that of a temporary file. -/
structure Apart (files : TlsFiles) : Prop where
  paths : ∀ s t, files.path s = files.path t → s = t
  temporary : ∀ s t, files.path s ≠ files.path t ++ kTemporary

end TlsFiles

section Views

variable {files : TlsFiles} {d d' : Disk} {slot : TlsSlot} {path contents : Bytes}

theorem view_content (h : d'.content = d.content) : files.view d' = files.view d :=
  funext fun slot => congrFun h (files.path slot)

theorem view_untouched (hfiles : files.Apart) (h : Untouched d (files.path slot) d') :
    files.view d' = files.view d := by
  funext t
  exact h _ (hfiles.temporary t slot)

theorem view_removed (hfiles : files.Apart)
    (h : d'.content = (d.removed (files.path slot)).content) :
    files.view d' = Function.update (files.view d) slot none := by
  funext t
  rw [TlsFiles.view, h, removed_content]
  by_cases hslot : t = slot
  · rw [hslot, Function.update_self, Function.update_self]
  · rw [Function.update_of_ne hslot, Function.update_of_ne fun h => hslot (hfiles.paths _ _ h)]
    rfl

theorem view_renewed (hfiles : files.Apart) (h : Renewed d (files.path slot) contents d') :
    files.view d' = Function.update (files.view d) slot (some contents) := by
  funext t
  rw [TlsFiles.view, h _ (hfiles.temporary t slot)]
  by_cases hslot : t = slot
  · rw [hslot, Function.update_self, Function.update_self]
  · rw [Function.update_of_ne hslot, Function.update_of_ne fun h => hslot (hfiles.paths _ _ h)]
    rfl

/-- What holds of both views holds afterwards. -/
theorem TlsFiles.Puts.elim {contents : Option Bytes} (h : files.Puts slot contents d d')
    {P : (TlsSlot → Option Bytes) → Prop} (hkept : P (files.view d))
    (hput : P (Function.update (files.view d) slot contents)) : P (files.view d') := by
  obtain h | h := h
  · rw [h]
    exact hkept
  · rw [h]
    exact hput

/-- A write changes its own file, or none of the four. -/
theorem writeTls_ensures (hfiles : files.Apart) (slot : TlsSlot) (contents : Bytes) (d : Disk) :
    (writeTls (files.path slot) contents).Ensures faultyDisk (files.Puts slot (some contents) d)
      (fun complete d' => files.Puts slot (some contents) d d' ∧
        (complete = true → files.view d' = Function.update (files.view d) slot (some contents)))
      d := by
  refine Prog.ensures_mono ?_ ?_ (replaceFile_ensures d (files.path slot) contents _)
  · intro d' h
    exact h.imp (view_untouched hfiles) (view_renewed hfiles)
  · rintro complete d' ⟨h, hcomplete⟩
    exact ⟨h.imp (view_untouched hfiles) (view_renewed hfiles),
      fun h => view_renewed hfiles (hcomplete h)⟩

/-- An operation that leaves the files as they are, wherever it is cut off. -/
theorem cut_quiet {o : stateCalls.Op}
    (hquiet : ∀ answer, (performState d ⟨o, answer⟩).content = d.content)
    (h : faultyDisk.cut o d d') : d'.content = d.content := by
  obtain rfl | ⟨answer, rfl⟩ := h
  · rfl
  · exact hquiet answer

/-- What is read is what is there. -/
theorem readBoundedFile_ensures (path : Bytes) (d : Disk) :
    (readBoundedFile path).Ensures faultyDisk (fun d' => d'.content = d.content)
      (fun contents d' => d' = d ∧ (contents = none ∨ contents = d.content path)) d := by
  refine ⟨fun _ => rfl, fun _ => cut_quiet fun _ => rfl, ?_⟩
  rintro regular d' ⟨-, hd : d' = d⟩
  rw [hd]
  dsimp only
  split_ifs
  · exact ⟨fun _ => rfl, rfl, .inl rfl⟩
  refine ⟨fun _ => rfl, fun _ => cut_quiet fun _ => rfl, ?_⟩
  rintro (_ | size) d' ⟨-, hd : d' = d⟩
  · rw [hd]
    exact ⟨fun _ => rfl, rfl, .inl rfl⟩
  rw [hd]
  show (ite (kMaxTlsBytes < size) _ _ : Prog stateCalls _).Ensures _ _ _ _
  split_ifs
  · exact ⟨fun _ => rfl, rfl, .inl rfl⟩
  refine ⟨fun _ => rfl, fun _ => cut_quiet fun _ => rfl, ?_⟩
  rintro (_ | contents) d' ⟨hread, hd : d' = d⟩
  · rw [hd]
    exact ⟨fun _ => rfl, rfl, .inl rfl⟩
  rw [hd]
  refine ⟨fun _ => rfl, rfl, ?_⟩
  obtain hnone | hsome := (hread : some contents = none ∨ some contents = d.content path)
  · cases hnone
  · split_ifs
    · exact .inl rfl
    · exact .inr hsome

/-- A copy is what there is to copy. -/
theorem backupFile_ensures (hfiles : files.Apart) (source target : TlsSlot)
    (hpath : files.path target = previous (files.path source)) (d : Disk)
    (hsource : files.view d source = some contents) :
    (backupFile (files.path source)).Ensures faultyDisk (files.Puts target (some contents) d)
      (fun complete d' => files.Puts target (some contents) d d' ∧
        (complete = true → files.view d' = Function.update (files.view d) target (some contents)))
      d := by
  refine Prog.ensures_bind (Prog.ensures_mono (fun _ h => .inl (view_content h)) ?_
    (readBoundedFile_ensures _ d))
  rintro read d' ⟨rfl, rfl | hread⟩
  · exact ⟨fun _ => .inl rfl, .inl rfl, fun h => by cases h⟩
  · rw [hread.trans hsource, ← hpath]
    exact writeTls_ensures hfiles target contents d'

theorem syncDirectory_view (d : Disk) :
    (syncDirectory.inr : Prog stateCalls Bool).Ensures faultyDisk
      (fun d' => d'.content = d.content) (fun _ d' => d'.content = d.content) d := by
  refine ⟨fun _ => rfl, fun _ => cut_quiet fun _ => rfl, ?_⟩
  rintro (_ | descriptor) d' ⟨-, hd : d' = d⟩
  · rw [hd]
    exact ⟨fun _ => rfl, rfl⟩
  rw [hd]
  refine ⟨fun _ => rfl, fun _ => cut_quiet fun _ => rfl, ?_⟩
  rintro synced d' ⟨-, hd : d' = d⟩
  rw [hd]
  refine ⟨fun _ => rfl, fun _ => cut_quiet fun _ => rfl, ?_⟩
  rintro closed d' ⟨-, rfl⟩
  exact ⟨fun _ => rfl, rfl⟩

/-- A file is removed, or nothing is. -/
theorem removeFile_ensures (hfiles : files.Apart) (slot : TlsSlot) (d : Disk) :
    (removeFile (files.path slot)).Ensures faultyDisk (files.Puts slot none d)
      (fun _ => files.Puts slot none d) d := by
  have hperformed : ∀ removed : Option Bool, ∀ d' : Disk,
      d'.content = (perform d ⟨.remove (files.path slot), removed⟩).content →
      files.Puts slot none d d' := by
    intro removed d' hd
    rw [perform] at hd
    split_ifs at hd
    · exact .inr (view_removed hfiles hd)
    · exact .inl (view_content hd)
  refine ⟨fun _ => .inl rfl, ?_, ?_⟩
  · rintro d' (rfl | ⟨removed, rfl⟩)
    · exact .inl rfl
    · exact hperformed removed _ rfl
  · rintro removed d' ⟨-, rfl⟩
    show (ite ((removed : Option Bool).isNone = true) _ _ : Prog stateCalls _).Ensures _ _ _ _
    split_ifs
    · exact ⟨fun _ => hperformed removed _ rfl, hperformed removed _ rfl⟩
    · refine Prog.ensures_bind (Prog.ensures_mono (hperformed removed) ?_
        (syncDirectory_view _))
      intro _ d' hd
      exact ⟨fun _ => hperformed removed d' hd, hperformed removed d' hd⟩

end Views

/-- The pair is in place. -/
def TlsPair.At (pair : TlsPair) (v : TlsSlot → Option Bytes) : Prop :=
  v .certificate = some pair.certificate ∧ v .privateKey = some pair.privateKey

/-! ### The first pair -/

section Generating

variable {files : TlsFiles} {d : Disk}

theorem kept_of_content {d' : Disk} (h : d'.content = d.content) : files.Kept d d' :=
  fun slot _ => congrFun (view_content h) slot

/-- A file that was not there may be put or removed. -/
theorem TlsFiles.Kept.puts {d₁ d₂ : Disk} {slot : TlsSlot} {contents : Option Bytes}
    (h : files.Kept d d₁) (hnew : files.view d slot = none)
    (hputs : files.Puts slot contents d₁ d₂) : files.Kept d d₂ := by
  intro t ht
  have hslot : t ≠ slot := by
    rintro rfl
    exact ht hnew
  refine hputs.elim (P := fun v => v t = files.view d t) (h t ht) ?_
  rw [Function.update_of_ne hslot]
  exact h t ht

/-- Where there is neither of the two files, the pair is put there, or what was there stays. -/
theorem generateCertificate_ensures (hfiles : files.Apart) (generated : Option TlsPair)
    (hcertificate : files.view d .certificate = none)
    (hprivateKey : files.view d .privateKey = none) :
    (generateCertificate files generated).Ensures faultyDisk (files.Kept d)
      (fun written d' => files.Kept d d' ∧
        (written = true → ∃ pair, generated = some pair ∧ pair.At (files.view d'))) d := by
  cases generated with
  | none => exact ⟨fun _ => kept_of_content rfl, kept_of_content rfl, fun h => by cases h⟩
  | some pair =>
    refine Prog.ensures_bind (Prog.ensures_mono ?_ ?_
      (writeTls_ensures hfiles .privateKey pair.privateKey d))
    · exact fun d' h => (kept_of_content rfl).puts hprivateKey h
    rintro written d₁ ⟨h, hkey⟩
    have hkept₁ : files.Kept d d₁ := (kept_of_content rfl).puts hprivateKey h
    refine Prog.ensures_ite (fun _ => ⟨fun _ => hkept₁, hkept₁, fun h => by cases h⟩)
      fun hdone => ?_
    replace hkey := hkey (by simpa using hdone)
    refine Prog.ensures_bind (Prog.ensures_mono ?_ ?_
      (writeTls_ensures hfiles .certificate pair.certificate d₁))
    · exact fun d' h => hkept₁.puts hcertificate h
    rintro written d₂ ⟨h, hwritten⟩
    have hkept₂ : files.Kept d d₂ := hkept₁.puts hcertificate h
    refine Prog.ensures_ite (fun hdone => ⟨fun _ => hkept₂, hkept₂, fun _ => ⟨pair, rfl, ?_⟩⟩)
      fun _ => ?_
    · rw [hwritten hdone, hkey]
      exact ⟨Function.update_self .., by
        rw [Function.update_of_ne (by decide), Function.update_self]⟩
    -- the key is taken away again
    have hunlinked : ∀ unlinked : Bool, files.Kept d (perform d₂ ⟨.unlink files.privateKey,
        unlinked⟩) := by
      intro unlinked
      have hputs : files.Puts .privateKey none d₂ (perform d₂ ⟨.unlink files.privateKey,
          unlinked⟩) := by
        cases unlinked with
        | false => exact .inl rfl
        | true => exact .inr (view_removed hfiles rfl)
      exact hkept₂.puts hprivateKey hputs
    refine ⟨fun _ => hkept₂, ?_, ?_⟩
    · rintro d' (rfl | ⟨unlinked, rfl⟩)
      · exact hkept₂
      · exact hunlinked unlinked
    · rintro unlinked d' ⟨-, rfl⟩
      exact ⟨fun _ => hunlinked unlinked, hunlinked unlinked, fun h => by cases h⟩

/-- A server that starts has a pair, its own or a new one, and no file that was there is touched,
whatever fails and wherever the process dies. -/
theorem ensureCertificate_ensures (hfiles : files.Apart) (generated : Option TlsPair)
    (moded : Bool) (d : Disk) :
    (ensureCertificate files generated moded).Ensures faultyDisk (files.Kept d)
      (fun ready d' => files.Kept d d' ∧ (ready = true → ∃ pair : TlsPair,
        pair.At (files.view d') ∧ (pair.At (files.view d) ∨ generated = some pair))) d := by
  have hsame : files.Kept d d := kept_of_content rfl
  refine ⟨fun _ => hsame, fun _ h => kept_of_content (cut_quiet (fun _ => rfl) h), ?_⟩
  rintro certificate d' ⟨hcertificate, hd : d' = d⟩
  rw [hd]
  refine ⟨fun _ => hsame, fun _ h => kept_of_content (cut_quiet (fun _ => rfl) h), ?_⟩
  rintro privateKey d' ⟨hprivateKey, hd : d' = d⟩
  rw [hd]
  have hstopped : (Prog.done false : Prog stateCalls Bool).Ensures faultyDisk (files.Kept d)
      (fun ready d' => files.Kept d d' ∧ (ready = true → ∃ pair : TlsPair,
        pair.At (files.view d') ∧ (pair.At (files.view d) ∨ generated = some pair))) d :=
    ⟨fun _ => hsame, hsame, fun h => by cases h⟩
  obtain rfl | rfl := hcertificate
  · exact hstopped
  obtain rfl | rfl := hprivateKey
  · exact hstopped
  refine Prog.ensures_ite (fun _ => hstopped) fun hboth => ?_
  replace hboth := not_not.mp hboth
  refine Prog.ensures_ite (fun hthere => ?_) fun hmissing => ?_
  · obtain ⟨certificate, hcertificate⟩ := Option.isSome_iff_exists.mp hthere
    obtain ⟨privateKey, hprivateKey⟩ := Option.isSome_iff_exists.mp (hboth.symm.trans hthere)
    have hat : TlsPair.At ⟨certificate, privateKey⟩ (files.view d) := ⟨hcertificate, hprivateKey⟩
    exact ⟨fun _ => hsame, hsame, fun _ => ⟨_, hat, .inl hat⟩⟩
  · have hcertificate : files.view d .certificate = none :=
      Option.not_isSome_iff_eq_none.mp hmissing
    have hprivateKey : files.view d .privateKey = none := by
      rw [hboth] at hmissing
      exact Option.not_isSome_iff_eq_none.mp hmissing
    refine Prog.ensures_bind (Prog.ensures_mono (fun _ h => h) ?_
      (generateCertificate_ensures hfiles generated hcertificate hprivateKey))
    rintro written d' ⟨hkept, hwritten⟩
    refine ⟨fun _ => hkept, hkept, fun hready => ?_⟩
    obtain ⟨pair, hpair, hat⟩ := hwritten (Bool.and_eq_true_iff.mp hready).1
    exact ⟨pair, hat, .inr hpair⟩

end Generating

/-! ### Replacing the pair -/

/-- The copies are those of the pair. -/
def TlsPair.CopiedAt (pair : TlsPair) (v : TlsSlot → Option Bytes) : Prop :=
  v .certificatePrevious = some pair.certificate ∧ v .privateKeyPrevious = some pair.privateKey

/-- A pair is in place, or the old one can still be put there. -/
def Recoverable (old new : TlsPair) (v : TlsSlot → Option Bytes) : Prop :=
  old.At v ∨ new.At v ∨ old.CopiedAt v

/-- No copy is there that a replacement which fails early would put in place of the pair. -/
def Unhindered (pair : TlsPair) (v : TlsSlot → Option Bytes) : Prop :=
  v .privateKeyPrevious = none ∨ v .privateKeyPrevious = some pair.privateKey ∧
    (v .certificatePrevious = none ∨ v .certificatePrevious = some pair.certificate)

section Replacing

variable {files : TlsFiles} {d : Disk} {old new : TlsPair} {v : TlsSlot → Option Bytes}

/-- A restore puts both copies in place, or the first of them, or nothing. -/
theorem restoreBackup_ensures (hfiles : files.Apart) {P : (TlsSlot → Option Bytes) → Prop}
    (hnone : P (files.view d))
    (hsome : ∀ certificate privateKey, files.view d .certificatePrevious = some certificate →
      files.view d .privateKeyPrevious = some privateKey →
      P (Function.update (files.view d) .certificate (some certificate)) ∧
        P (Function.update (Function.update (files.view d) .certificate (some certificate))
          .privateKey (some privateKey))) :
    (restoreBackup files).Ensures faultyDisk (fun d' => P (files.view d'))
      (fun _ d' => P (files.view d')) d := by
  have hkept : ∀ d' : Disk, d'.content = d.content → P (files.view d') := by
    intro d' h
    rw [view_content h]
    exact hnone
  refine Prog.ensures_bind (Prog.ensures_mono hkept ?_ (readBoundedFile_ensures _ d))
  rintro (_ | certificate) d' ⟨rfl, hcertificate⟩
  · exact ⟨fun _ => hnone, hnone⟩
  replace hcertificate := (hcertificate.resolve_left (Option.some_ne_none _)).symm
  refine Prog.ensures_bind (Prog.ensures_mono hkept ?_ (readBoundedFile_ensures _ d'))
  rintro (_ | privateKey) d' ⟨rfl, hprivateKey⟩
  · exact ⟨fun _ => hnone, hnone⟩
  replace hprivateKey := (hprivateKey.resolve_left (Option.some_ne_none _)).symm
  obtain ⟨hfirst, hboth⟩ := hsome certificate privateKey hcertificate hprivateKey
  refine Prog.ensures_bind (Prog.ensures_mono (fun _ h => h.elim hnone hfirst) ?_
    (writeTls_ensures hfiles .certificate certificate d'))
  rintro complete d'' ⟨h, hcomplete⟩
  cases complete with
  | false =>
    have hstate : P (files.view d'') := h.elim hnone hfirst
    exact ⟨fun _ => hstate, hstate⟩
  | true =>
    rw [← hcomplete rfl] at hfirst hboth
    refine Prog.ensures_bind (Prog.ensures_mono (fun _ h => h.elim hfirst hboth) ?_
      (writeTls_ensures hfiles .privateKey privateKey d''))
    rintro _ e ⟨h, -⟩
    have hstate : P (files.view e) := h.elim hfirst hboth
    exact ⟨fun _ => hstate, hstate⟩

theorem TlsPair.At.update (h : old.At v) (slot : TlsSlot) (hcertificate : .certificate ≠ slot)
    (hprivateKey : .privateKey ≠ slot) (contents : Option Bytes) :
    old.At (Function.update v slot contents) := by
  constructor
  · rw [Function.update_of_ne hcertificate]
    exact h.1
  · rw [Function.update_of_ne hprivateKey]
    exact h.2

theorem TlsPair.CopiedAt.update (h : old.CopiedAt v) (slot : TlsSlot)
    (hcertificate : .certificatePrevious ≠ slot) (hprivateKey : .privateKeyPrevious ≠ slot)
    (contents : Option Bytes) : old.CopiedAt (Function.update v slot contents) := by
  constructor
  · rw [Function.update_of_ne hcertificate]
    exact h.1
  · rw [Function.update_of_ne hprivateKey]
    exact h.2

variable {c : TlsContext}

theorem giveBack_ensures (hfiles : c.files.Apart) {P : (TlsSlot → Option Bytes) → Prop}
    (hnone : P (c.files.view d))
    (hsome : ∀ certificate privateKey, c.files.view d .certificatePrevious = some certificate →
      c.files.view d .privateKeyPrevious = some privateKey →
      P (Function.update (c.files.view d) .certificate (some certificate)) ∧
        P (Function.update (Function.update (c.files.view d) .certificate (some certificate))
          .privateKey (some privateKey))) :
    c.giveBack.Ensures faultyDisk (fun d' => P (c.files.view d'))
      (fun r d' => P (c.files.view d') ∧ r = (.storageError, c)) d :=
  Prog.ensures_bind (Prog.ensures_mono (fun _ h => h) (fun _ _ h => ⟨fun _ => h, h, rfl⟩)
    (restoreBackup_ensures hfiles hnone hsome))

/-- As long as the pair has not been touched, harmless copies leave it in place. -/
theorem giveBack_at (hfiles : c.files.Apart) (hold : old.At (c.files.view d))
    (hclear : Unhindered old (c.files.view d)) :
    c.giveBack.Ensures faultyDisk (fun d' => old.At (c.files.view d'))
      (fun r d' => old.At (c.files.view d') ∧ r = (.storageError, c)) d := by
  refine giveBack_ensures hfiles hold ?_
  intro certificate privateKey hcertificate hprivateKey
  rw [Unhindered, hcertificate, hprivateKey] at hclear
  obtain hnone | ⟨hkey, hnone | hcopy⟩ := hclear
  · cases hnone
  · cases hnone
  · rw [hkey, hcopy, ← hold.1, ← hold.2, Function.update_eq_self, Function.update_eq_self]
    exact ⟨hold, hold⟩

/-- What has been copied stays copied. -/
theorem giveBack_copied (hfiles : c.files.Apart) (hcopied : old.CopiedAt (c.files.view d)) :
    c.giveBack.Ensures faultyDisk (fun d' => old.CopiedAt (c.files.view d'))
      (fun r d' => old.CopiedAt (c.files.view d') ∧ r = (.storageError, c)) d := by
  refine giveBack_ensures hfiles hcopied fun certificate privateKey _ _ => ?_
  have hfirst := hcopied.update .certificate (by decide) (by decide) (some certificate)
  exact ⟨hfirst, hfirst.update .privateKey (by decide) (by decide) _⟩

/-- What a replacement has come to. -/
def TlsReplaced (old new : TlsPair) (c : TlsContext) (d : Disk)
    (r : TlsReplaceResult × TlsContext) (d' : Disk) : Prop :=
  match r.1 with
  | .replaced => new.At (c.files.view d') ∧ r.2 = { c with context := new }
  | .storageError => (old.At (c.files.view d') ∨ old.CopiedAt (c.files.view d')) ∧ r.2 = c
  | .invalid => d' = d ∧ r.2 = c

/-- Both copies have been made: whatever becomes of the pair, they are there until the new one is in
place. -/
theorem putPair_ensures (hfiles : c.files.Apart) (hcopied : old.CopiedAt (c.files.view d))
    (start : Disk) :
    (c.putPair new).Ensures faultyDisk
      (fun d' => new.At (c.files.view d') ∨ old.CopiedAt (c.files.view d'))
      (fun r d' => TlsReplaced old new c start r d') d := by
  have hback : ∀ d' : Disk, old.CopiedAt (c.files.view d') → c.giveBack.Ensures faultyDisk
      (fun d' => new.At (c.files.view d') ∨ old.CopiedAt (c.files.view d'))
      (fun r d' => TlsReplaced old new c start r d') d' := by
    intro d' h
    refine Prog.ensures_mono (fun _ h => .inr h) ?_ (giveBack_copied hfiles h)
    rintro r d'' ⟨hcopied, rfl⟩
    exact ⟨.inr hcopied, rfl⟩
  have hwritten : ∀ slot contents (d d' : Disk), .certificatePrevious ≠ slot →
      .privateKeyPrevious ≠ slot → old.CopiedAt (c.files.view d) →
      c.files.Puts slot (some contents) d d' → old.CopiedAt (c.files.view d') := by
    intro slot contents d d' hcertificate hprivateKey hcopied h
    exact h.elim hcopied (hcopied.update slot hcertificate hprivateKey _)
  refine Prog.ensures_bind (Prog.ensures_mono ?_ ?_
    (writeTls_ensures hfiles .privateKey new.privateKey d))
  · exact fun d' h => .inr (hwritten _ _ d d' (by decide) (by decide) hcopied h)
  rintro written d₁ ⟨h, hkey⟩
  replace h := hwritten _ _ d d₁ (by decide) (by decide) hcopied h
  refine Prog.ensures_ite (fun _ => hback d₁ h) fun hdone => ?_
  replace hkey := hkey (by simpa using hdone)
  refine Prog.ensures_bind (Prog.ensures_mono ?_ ?_
    (writeTls_ensures hfiles .certificate new.certificate d₁))
  · exact fun d' h' => .inr (hwritten _ _ d₁ d' (by decide) (by decide) h h')
  rintro written d₂ ⟨h', hcertificate⟩
  replace h' := hwritten _ _ d₁ d₂ (by decide) (by decide) h h'
  refine Prog.ensures_ite (fun _ => hback d₂ h') fun hdone => ?_
  replace hcertificate := hcertificate (by simpa using hdone)
  have hnew : new.At (c.files.view d₂) := by
    rw [hcertificate, hkey]
    exact ⟨Function.update_self .., by
      rw [Function.update_of_ne (by decide), Function.update_self]⟩
  -- the copies go, and the new pair stays
  have hremoved : ∀ slot (d d' : Disk), .certificate ≠ slot → .privateKey ≠ slot →
      new.At (c.files.view d) → c.files.Puts slot none d d' → new.At (c.files.view d') := by
    intro slot d d' hcertificate hprivateKey hnew h
    exact h.elim hnew (hnew.update slot hcertificate hprivateKey _)
  refine Prog.ensures_bind (Prog.ensures_mono ?_ ?_
    (removeFile_ensures hfiles .certificatePrevious d₂))
  · exact fun d' h => .inl (hremoved _ d₂ d' (by decide) (by decide) hnew h)
  intro _ d₃ h₃
  replace h₃ := hremoved _ d₂ d₃ (by decide) (by decide) hnew h₃
  refine Prog.ensures_bind (Prog.ensures_mono ?_ ?_
    (removeFile_ensures hfiles .privateKeyPrevious d₃))
  · exact fun d' h => .inl (hremoved _ d₃ d' (by decide) (by decide) h₃ h)
  intro _ d₄ h₄
  replace h₄ := hremoved _ d₃ d₄ (by decide) (by decide) h₃ h₄
  exact ⟨fun _ => .inl h₄, h₄, rfl⟩

/-- Where no copy is in the way: at every moment a pair is in place, or the copies are those of the
old one. -/
theorem replace_ensures (ssl : OpenSsl) (hfiles : c.files.Apart) (hold : old.At (c.files.view d))
    (hclear : Unhindered old (c.files.view d)) :
    (c.replace ssl new).Ensures faultyDisk (fun d' => Recoverable old new (c.files.view d'))
      (fun r d' => TlsReplaced old new c d r d') d := by
  have hback : ∀ d' : Disk, old.At (c.files.view d') → Unhindered old (c.files.view d') →
      c.giveBack.Ensures faultyDisk (fun d' => Recoverable old new (c.files.view d'))
        (fun r d' => TlsReplaced old new c d r d') d' := by
    intro d' hat h
    refine Prog.ensures_mono (fun _ h => .inl h) ?_ (giveBack_at hfiles hat h)
    rintro r d'' ⟨hat, rfl⟩
    exact ⟨.inl hat, rfl⟩
  -- the copies that are being made are harmless as well
  have hfirst : ∀ d', c.files.Puts .certificatePrevious (some old.certificate) d d' →
      old.At (c.files.view d') ∧ Unhindered old (c.files.view d') := by
    intro d' h
    refine h.elim (P := fun v => old.At v ∧ Unhindered old v) ⟨hold, hclear⟩ ⟨?_, ?_⟩
    · exact hold.update .certificatePrevious (by decide) (by decide) _
    · rw [Unhindered, Function.update_self, Function.update_of_ne (by decide)]
      exact hclear.imp_right fun h => ⟨h.1, .inr rfl⟩
  refine Prog.ensures_ite (fun _ => ⟨fun _ => .inl hold, rfl, rfl⟩) fun _ => ?_
  refine Prog.ensures_bind (Prog.ensures_mono (fun d' h => .inl (hfirst d' h).1) ?_
    (backupFile_ensures hfiles .certificate .certificatePrevious rfl d hold.1))
  rintro kept d₁ ⟨h, hkept⟩
  obtain ⟨hat₁, hclear₁⟩ := hfirst d₁ h
  refine Prog.ensures_ite (fun _ => hback d₁ hat₁ hclear₁) fun hdone => ?_
  have hcopy : c.files.view d₁ .certificatePrevious = some old.certificate := by
    rw [hkept (by simpa using hdone), Function.update_self]
  have hsecond : ∀ d', c.files.Puts .privateKeyPrevious (some old.privateKey) d₁ d' →
      old.At (c.files.view d') ∧ Unhindered old (c.files.view d') := by
    intro d' h
    refine h.elim (P := fun v => old.At v ∧ Unhindered old v) ⟨hat₁, hclear₁⟩ ⟨?_, ?_⟩
    · exact hat₁.update .privateKeyPrevious (by decide) (by decide) _
    · rw [Unhindered, Function.update_self, Function.update_of_ne (by decide)]
      exact .inr ⟨rfl, .inr hcopy⟩
  refine Prog.ensures_bind (Prog.ensures_mono (fun d' h => .inl (hsecond d' h).1) ?_
    (backupFile_ensures hfiles .privateKey .privateKeyPrevious rfl d₁ hat₁.2))
  rintro kept d₂ ⟨h, hkept⟩
  obtain ⟨hat₂, hclear₂⟩ := hsecond d₂ h
  refine Prog.ensures_ite (fun _ => hback d₂ hat₂ hclear₂) fun hdone => ?_
  have hcopied : old.CopiedAt (c.files.view d₂) := by
    rw [hkept (by simpa using hdone)]
    exact ⟨by rw [Function.update_of_ne (by decide), hcopy], Function.update_self ..⟩
  exact Prog.ensures_mono (fun _ h => .inr h) (fun _ _ h => h) (putPair_ensures hfiles hcopied d)

/-! ### Copies that are in the way -/

/-- What is reported where nothing fails may be reported. -/
theorem reports_of_succeeds {o : stateCalls.Op} {answer : stateCalls.Answer o}
    (h : Succeeds d o answer) : Reports d o answer := by
  rcases o with look | call
  · cases look with
    | present path => exact .inr h
    | isSymlink path => exact h.1
    | isRegularFile path => exact h.mp
  · cases call with
    | fileSize path => exact .inr h
    | readFile path => exact .inr h
    | _ => trivial

theorem writeTls_runs (hfiles : files.Apart) (slot : TlsSlot) (contents : Bytes) (d : Disk) :
    ∃ d', (writeTls (files.path slot) contents).Runs faultyDisk d (some true) d' ∧
      files.view d' = Function.update (files.view d) slot (some contents) := by
  obtain ⟨complete, d', hrun⟩ := exists_steadyRun (writeTls (files.path slot) contents) d
  obtain ⟨rfl, hrenewed⟩ := (replaceFile_steady d _ contents _).sound hrun
  have hanswers : ∀ o d answer d', steadyDisk.answers o d answer d' →
      faultyDisk.answers o d answer d' := fun _ _ _ _ h => ⟨reports_of_succeeds h.1, h.2⟩
  have hcut : ∀ o d d', steadyDisk.cut o d d' → faultyDisk.cut o d d' := fun _ _ _ h => h
  have hdies : ∀ d, steadyDisk.dies d → faultyDisk.dies d := fun _ h => h
  exact ⟨d', hrun.weaken hanswers hcut hdies, view_renewed hfiles hrenewed⟩

theorem readBoundedFile_runs {path contents : Bytes} (hcontent : d.content path = some contents)
    (hfits : contents.length ≤ kMaxTlsBytes) :
    (readBoundedFile path).Runs faultyDisk d (some (some contents)) d := by
  have hlimit : ¬ kMaxTlsBytes < contents.length := Nat.not_lt.mpr hfits
  have hregular : faultyDisk.answers (.inl (.isRegularFile path)) d (some true : Option Bool) d :=
    ⟨fun _ => by rw [hcontent]; rfl, rfl⟩
  have hsize : faultyDisk.answers (.inr (.fileSize path)) d (some contents.length : Option ℕ) d :=
    ⟨.inr (by rw [hcontent]; rfl), rfl⟩
  have hread : faultyDisk.answers (.inr (.readFile path)) d (some contents : Option Bytes) d :=
    ⟨.inr hcontent.symm, rfl⟩
  refine .call hregular ?_
  rw [if_neg (not_not.mpr rfl)]
  refine .call hsize ?_
  show (ite (kMaxTlsBytes < contents.length) _ _ : Prog stateCalls _).Runs _ _ _ _
  rw [if_neg hlimit]
  refine .call hread ?_
  show (Prog.done (if kMaxTlsBytes < contents.length then none else some contents)).Runs _ _ _ _
  rw [if_neg hlimit]
  exact .done _ _

/-- What is there need not be readable. -/
theorem readBoundedFile_fails (path : Bytes) (d : Disk) :
    (readBoundedFile path).Runs faultyDisk d (some none) d := by
  have hreport : Reports d (.inl (.isRegularFile path)) (none : Option Bool) := by
    intro h
    cases h
  have hregular : faultyDisk.answers (.inl (.isRegularFile path)) d (none : Option Bool) d :=
    ⟨hreport, rfl⟩
  exact .call hregular (.done _ _)

theorem backupFile_fails (path : Bytes) (d : Disk) :
    (backupFile path).Runs faultyDisk d (some false) d :=
  (readBoundedFile_fails path d).bind (.done _ _)

/-- A restore that succeeds puts both copies in place, whatever they are. -/
theorem giveBack_runs (hfiles : c.files.Apart) {pair : TlsPair}
    (hcopied : pair.CopiedAt (c.files.view d))
    (hcertificate : pair.certificate.length ≤ kMaxTlsBytes)
    (hprivateKey : pair.privateKey.length ≤ kMaxTlsBytes) :
    ∃ d', c.giveBack.Runs faultyDisk d (some (.storageError, c)) d' ∧
      pair.At (c.files.view d') ∧ pair.CopiedAt (c.files.view d') := by
  obtain ⟨d₁, hfirst, hview₁⟩ := writeTls_runs hfiles .certificate pair.certificate d
  obtain ⟨d₂, hsecond, hview₂⟩ := writeTls_runs hfiles .privateKey pair.privateKey d₁
  have hrestored : (restoreBackup c.files).Runs faultyDisk d (some ()) d₂ := by
    refine (readBoundedFile_runs hcopied.1 hcertificate).bind ?_
    refine (readBoundedFile_runs hcopied.2 hprivateKey).bind ?_
    exact hfirst.bind (hsecond.bind (.done _ _))
  refine ⟨d₂, hrestored.bind (.done _ _), ?_, ?_⟩
  · rw [hview₂, hview₁]
    exact ⟨by rw [Function.update_of_ne (by decide), Function.update_self], Function.update_self ..⟩
  · rw [hview₂, hview₁]
    exact (hcopied.update .certificate (by decide) (by decide) _).update .privateKey (by decide)
      (by decide) _

/-- With any other copies a failure puts a certificate and a key in place that do not belong
together, and the old pair is nowhere. -/
theorem replace_tears (ssl : OpenSsl) (hfiles : c.files.Apart) (hold : old.At (c.files.view d))
    (hfits : ∀ slot contents, c.files.view d slot = some contents → contents.length ≤ kMaxTlsBytes)
    (hpem : contextFromPem ssl new = true) (hcertificate : new.certificate ≠ old.certificate)
    (hprivateKey : new.privateKey ≠ old.privateKey)
    (hhindered : ¬ Unhindered old (c.files.view d)) :
    ∃ d', (c.replace ssl new).Runs faultyDisk d (some (.storageError, c)) d' ∧
      ¬ Recoverable old new (c.files.view d') := by
  rw [Unhindered, not_or] at hhindered
  obtain ⟨hnone, hcopies⟩ := hhindered
  obtain ⟨key, hkey⟩ := Option.ne_none_iff_exists'.mp hnone
  have hstarts : ∀ d', (backupFile c.files.certificate >>= fun kept =>
      if !kept then c.giveBack
      else backupFile c.files.privateKey >>= fun kept =>
        if !kept then c.giveBack else c.putPair new).Runs faultyDisk d
          (some (.storageError, c)) d' →
      (c.replace ssl new).Runs faultyDisk d (some (.storageError, c)) d' := by
    intro d' h
    rw [TlsContext.replace, hpem]
    exact h
  by_cases hother : key = old.privateKey
  · -- the copy of the certificate is an older one: it is put in place as soon as a copy fails
    rw [hother] at hkey
    obtain ⟨hcopy, hnew⟩ := not_or.mp fun h => hcopies ⟨hkey, h⟩
    obtain ⟨certificate, hcopied⟩ := Option.ne_none_iff_exists'.mp hcopy
    rw [hcopied, Option.some_inj] at hnew
    have hcopies : TlsPair.CopiedAt ⟨certificate, old.privateKey⟩ (c.files.view d) :=
      ⟨hcopied, hkey⟩
    obtain ⟨d', hrun, hat, hthere⟩ :=
      giveBack_runs hfiles hcopies (hfits _ _ hcopied) (hfits _ _ hkey)
    refine ⟨d', hstarts d' ?_, ?_⟩
    · exact (backupFile_fails _ d).bind hrun
    · rintro (h | h | h)
      · exact hnew (Option.some_inj.mp (hat.1.symm.trans h.1))
      · exact hprivateKey (Option.some_inj.mp (hat.2.symm.trans h.2)).symm
      · exact hnew (Option.some_inj.mp (hthere.1.symm.trans h.1))
  · -- the copy of the key is an older one: it is put in place beside the copied certificate
    obtain ⟨d₁, hwrite, hview⟩ := writeTls_runs hfiles .certificatePrevious old.certificate d
    have hbackup : (backupFile c.files.certificate).Runs faultyDisk d (some true) d₁ :=
      (readBoundedFile_runs hold.1 (hfits _ _ hold.1)).bind hwrite
    have hcopied : TlsPair.CopiedAt ⟨old.certificate, key⟩ (c.files.view d₁) := by
      rw [hview]
      exact ⟨Function.update_self .., by rw [Function.update_of_ne (by decide), hkey]⟩
    obtain ⟨d', hrun, hat, hthere⟩ := giveBack_runs hfiles hcopied (hfits _ _ hold.1)
      (hfits _ _ hkey)
    refine ⟨d', hstarts d' ?_, ?_⟩
    · refine hbackup.bind ?_
      exact (backupFile_fails _ d₁).bind hrun
    · rintro (h | h | h)
      · exact hother (Option.some_inj.mp (hat.2.symm.trans h.2))
      · exact hcertificate (Option.some_inj.mp (hat.1.symm.trans h.1)).symm
      · exact hother (Option.some_inj.mp (hthere.2.symm.trans h.2))

end Replacing

/-! ### The files of a new device -/

def serverFiles : TlsFiles := ⟨ascii "server.crt", ascii "server.key"⟩

theorem serverFiles_apart : serverFiles.Apart where
  paths s t := by cases s <;> cases t <;> decide
  temporary s t := by cases s <;> cases t <;> decide

/-- A certificate and its key, and no copies. -/
def firstPair : Disk where
  content path :=
    if path = serverFiles.certificate then some [1]
    else if path = serverFiles.privateKey then some [2]
    else none

theorem firstPair_fits : ∀ slot contents, serverFiles.view firstPair slot = some contents →
    contents.length ≤ kMaxTlsBytes := by
  have hall : ∀ slot, ((serverFiles.view firstPair slot).all fun contents =>
      decide (contents.length ≤ kMaxTlsBytes)) = true := by
    intro slot
    cases slot <;> decide
  intro slot contents hcontents
  have hslot := hall slot
  rw [hcontents] at hslot
  exact of_decide_eq_true hslot

end Uhf.Web
