/-
The quota of the FTP server, under connections that store files side by side.

A storage is what the root directory holds, by name, and for each descriptor the upload it was last
opened for.  The files that count are those with valid names; the temporaries are not among them.

* `usage_turns` — the scan of STOR counts the other files, if it can read the status of each;
* `Receiving` — what holds while a file comes in;
* `finishUpload_turns`, `receiveRound_turns`, `writeRound_turns` — the rounds under the lock;
* `quota_kept` — every run of any number of connections.
-/
import UhfGateway.Containers.Table
import UhfGateway.Effects.Mutex
import UhfGateway.Ftp.Access

namespace Uhf.Ftp

open Containers Effects
open Web (appendPath)

/-! ### The storage -/

inductive Entry
  | regular (size : ℕ)
  | other
  deriving DecidableEq

def Entry.size? : Entry → Option ℕ
  | .regular size => some size
  | .other => none

def Entry.grow (count : ℕ) : Entry → Entry
  | .regular size => .regular (size + count)
  | .other => .other

structure Storage where
  /-- What the root holds. -/
  files : Table Bytes Entry
  /-- The name that a descriptor was last opened for to write. -/
  upload : ℕ → Option Bytes

/-- The size that counts for a name: none unless it is valid and that of a regular file. -/
def visibleSize (files : Table Bytes Entry) (name : Bytes) : Option ℕ :=
  if validFilename name then (files.lookup name).bind Entry.size? else none

def visible (files : Table Bytes Entry) : List ℕ := files.keys.filterMap (visibleSize files)

/-- The visible files but for one. -/
def others (files : Table Bytes Entry) (argument : Bytes) : List ℕ :=
  (files.keys.filter (· ≠ argument)).filterMap (visibleSize files)

structure Quota (options : ServerOptions) (files : Table Bytes Entry) : Prop where
  count : (visible files).length ≤ options.maxFiles
  each : ∀ size ∈ visible files, size ≤ options.maxFileBytes.toNat
  total : (visible files).sum ≤ options.maxTotalBytes.toNat

/-! ### What the operations do -/

/-- The name below the root that a path is of. -/
def nameBelow (options : ServerOptions) (path : Bytes) : Option Bytes :=
  if (entryPath options []).isPrefixOf path then some (path.drop (entryPath options []).length)
  else none

/-- The storage after an operation. -/
def storeAct (options : ServerOptions) (s : Storage) (act : Act ftpCalls) : Storage :=
  match act with
  | ⟨.createUpload path, some descriptor⟩ =>
    match nameBelow options path with
    | none => s
    | some name =>
      { files := s.files.insert name (.regular 0)
        upload := Function.update s.upload descriptor (some name) }
  | ⟨.writeFile descriptor _, .bytes count⟩ =>
    match s.upload descriptor with
    | none => s
    | some name => { s with files := s.files.modify name (.grow count) }
  | ⟨.rename source target, true⟩ =>
    match nameBelow options source, nameBelow options target with
    | some name, some name' =>
      match s.files.lookup name with
      | none => s
      | some entry => { s with files := AList.insert name' entry (s.files.erase name) }
    | _, _ => s
  | ⟨.unlink path, true⟩ =>
    match nameBelow options path with
    | none => s
    | some name => { s with files := s.files.erase name }
  | _ => s

/-- What the system may answer: the listing is complete unless it has failed, and a status that can
be read is that of the file; `recv` and `write` keep to the bytes they are given, and no file grows
beyond what its offset can count. -/
def Sound (options : ServerOptions) (s : Storage) (act : Act ftpCalls) : Prop :=
  match act with
  | ⟨.listRoot, names⟩ => names.2 = false → names.1.Perm s.files.keys
  | ⟨.isRegularFile path, some regular⟩ => ∀ name, nameBelow options path = some name →
      (regular = true ↔ ∃ size, s.files.lookup name = some (.regular size))
  | ⟨.fileSize path, some size⟩ => ∀ name length, nameBelow options path = some name →
      s.files.lookup name = some (.regular length) → size.toNat = length
  | ⟨.recvData, .bytes bytes⟩ => bytes.length ≤ 8192
  | ⟨.writeFile descriptor bytes, .bytes count⟩ => count ≤ bytes.length ∧
      ∀ name size, s.upload descriptor = some name → s.files.lookup name = some (.regular size) →
        size + count < 2 ^ 63
  | _ => True

def ftpWorld (options : ServerOptions) : World ftpCalls Storage where
  answers call s a s' := Sound options s ⟨call, a⟩ ∧ s' = storeAct options s ⟨call, a⟩
  cut _ _ _ := False
  dies _ := False

def storageMutex : Mutex ftpCalls where
  lock := FtpCall.lock
  unlock := FtpCall.unlock
  lock_ne := by decide

/-- The status of a regular file can be read. -/
def StatusRead (options : ServerOptions) (s : Storage) (act : Act ftpCalls) : Prop :=
  match act with
  | ⟨.isRegularFile path, none⟩ => ∀ name size, nameBelow options path = some name →
      s.files.lookup name ≠ some (.regular size)
  | _ => True

/-! ### Tables -/

section Tables

variable {options : ServerOptions} {files : Table Bytes Entry} {names : List Bytes}
  {name argument : Bytes} {entry : Entry} {size : ℕ}

theorem visibleSize_hidden (h : validFilename name = false) : visibleSize files name = none :=
  if_neg (by simp [h])

theorem visibleSize_insert (h : argument ≠ name) :
    visibleSize (files.insert name entry) argument = visibleSize files argument := by
  rw [visibleSize, visibleSize, AList.lookup_insert_ne h]

theorem visibleSize_erase (h : argument ≠ name) :
    visibleSize (files.erase name) argument = visibleSize files argument := by
  rw [visibleSize, visibleSize, AList.lookup_erase_ne h]

/-- Leaving a hidden name out makes no difference. -/
theorem filterMap_filter_hidden (h : validFilename name = false) :
    (names.filter (· ≠ name)).filterMap (visibleSize files) =
      names.filterMap (visibleSize files) := by
  rw [List.filterMap_filter]
  refine List.filterMap_congr fun other _ => ?_
  by_cases hother : other = name
  · rw [hother, visibleSize_hidden h]
    simp
  · rw [if_pos (by simpa using hother)]

/-- What is among the names but for one does not depend on the entry of that one. -/
theorem filterMap_filter_congr {files' : Table Bytes Entry}
    (h : ∀ other, other ≠ name → visibleSize files' other = visibleSize files other) :
    (names.filter (· ≠ name)).filterMap (visibleSize files') =
      (names.filter (· ≠ name)).filterMap (visibleSize files) := by
  refine List.filterMap_congr fun other hmem => h other ?_
  simpa using (List.mem_filter.mp hmem).2

theorem visible_insert : visible (files.insert name entry) =
    (visibleSize (files.insert name entry) name).toList ++ others files name := by
  rw [visible, Table.keys_insert_eq_filter, List.filterMap_cons, others,
    filterMap_filter_congr fun other hother => visibleSize_insert hother]
  cases visibleSize (files.insert name entry) name with
  | none => rfl
  | some size => rfl

section Hidden

variable (h : validFilename name = false)
include h

theorem others_hidden : others files name = visible files := filterMap_filter_hidden h

theorem visible_insert_hidden : visible (files.insert name entry) = visible files := by
  rw [visible_insert, visibleSize_hidden h, others_hidden h]
  rfl

theorem visible_erase_hidden : visible (files.erase name) = visible files := by
  rw [visible, Table.keys_erase_eq_filter,
    filterMap_filter_congr fun other hother => visibleSize_erase hother]
  exact filterMap_filter_hidden h

theorem others_erase_hidden : others (files.erase name) argument = others files argument := by
  have hcomm : (files.keys.filter (· ≠ name)).filter (· ≠ argument) =
      (files.keys.filter (· ≠ argument)).filter (· ≠ name) := List.filter_comm ..
  rw [others, Table.keys_erase_eq_filter, hcomm,
    filterMap_filter_congr fun other hother => visibleSize_erase hother]
  exact filterMap_filter_hidden h

theorem others_insert_hidden : others (files.insert name entry) argument = others files argument := by
  have hcomm : (files.keys.filter (· ≠ name)).filter (· ≠ argument) =
      (files.keys.filter (· ≠ argument)).filter (· ≠ name) := List.filter_comm ..
  have hrest : ((files.keys.filter (· ≠ name)).filter (· ≠ argument)).filterMap
      (visibleSize (files.insert name entry)) = others files argument := by
    rw [hcomm, filterMap_filter_congr fun other hother => visibleSize_insert hother]
    exact filterMap_filter_hidden h
  rw [others, Table.keys_insert_eq_filter, List.filter_cons]
  split_ifs
  · rw [List.filterMap_cons_none (visibleSize_hidden h)]
    exact hrest
  · exact hrest

/-- A temporary that takes the place of a file. -/
theorem visible_replace (hvalid : validFilename argument = true) :
    visible (AList.insert argument (.regular size) (files.erase name)) =
      size :: others files argument := by
  have hsize : visibleSize (AList.insert argument (.regular size) (files.erase name)) argument =
      some size := by
    rw [visibleSize, if_pos hvalid, AList.lookup_insert]
    rfl
  rw [visible_insert, hsize, others_erase_hidden h]
  rfl

end Hidden

theorem Quota.of_visible (h : Quota options files) {files' : Table Bytes Entry}
    (hsame : visible files' = visible files) : Quota options files' := by
  obtain ⟨hcount, heach, htotal⟩ := h
  rw [← hsame] at hcount heach htotal
  exact ⟨hcount, heach, htotal⟩

theorem Quota.each_others (h : Quota options files) :
    ∀ size ∈ others files argument, size ≤ options.maxFileBytes.toNat := by
  intro size hmem
  have hsublist : (others files argument).Sublist (visible files) :=
    List.filter_sublist.filterMap _
  exact h.each size (hsublist.subset hmem)

end Tables

/-! ### Under the lock -/

/-- A file on its way in, of which some bytes have been received and are not written yet. -/
structure Receiving (options : ServerOptions) (upload : Upload) (name : Bytes) (unwritten : ℕ)
    (s : Storage) : Prop where
  quota : Quota options s.files
  valid : validFilename upload.argument = true
  hidden : validFilename name = false
  temporary : nameBelow options upload.temporary = some name
  descriptor : s.upload upload.descriptor = some name
  size : ∃ size, s.files.lookup name = some (.regular size) ∧
    size + unwritten = upload.total.toNat ∧ size < 2 ^ 63
  total_le : upload.total ≤ upload.limit
  limit_le : upload.limit ≤ options.maxFileBytes
  count_lt : (others s.files upload.argument).length < options.maxFiles
  sum_le : (others s.files upload.argument).sum + upload.limit.toNat ≤ options.maxTotalBytes.toNat

/-- Where a connection may stand between two rounds, without the lock and with it. -/
def Between (options : ServerOptions) : Option Storage → Option Phase → Prop
  | none, none => True
  | none, some phase => Proper options phase ∧ ¬ phase.Storing
  | some s, some (.receiving _ upload) => ∃ name, Receiving options upload name 0 s
  | some s, some (.writing _ upload rest) => ∃ name, Receiving options upload name rest.length s
  | some _, _ => False

/-- What is asked of the programs of a connection. -/
abbrev KeepsQuota (options : ServerOptions) {α : Type} (R : Option Storage → α → Prop)
    (p : Prog ftpCalls α) (turn : Option Storage) : Prop :=
  p.Turns (ftpWorld options) storageMutex (StatusRead options) (¬ StoresFiles ·)
    (fun s => Quota options s.files) R turn

section Locked

variable {options : ServerOptions} {pid : ℕ} {session : Session} {upload : Upload} {s : Storage}
  {name argument : Bytes} {α : Type} {R : Option Storage → α → Prop}

theorem nameBelow_entryPath (h : name.head? ≠ some '/'.toUInt8) :
    nameBelow options (entryPath options name) = some name := by
  have hpath : entryPath options name = entryPath options [] ++ name := by
    have hnil : ([] : Bytes).head? ≠ some '/'.toUInt8 := by simp
    rw [entryPath, entryPath, appendPath, if_neg h, appendPath, if_neg hnil]
    split_ifs
    · rw [List.append_nil]
    · rw [List.append_nil]
  rw [nameBelow, hpath, if_pos (by simp), List.drop_left]

theorem nameBelow_valid (h : validFilename name = true) :
    nameBelow options (entryPath options name) = some name := by
  refine nameBelow_entryPath fun hhead => ?_
  exact (validFilename_spec h).2.2.1 (List.mem_of_mem_head? hhead)

theorem uploadName_head (pid : ℕ) (sequence : UInt64) :
    (uploadName pid sequence).head? = some '.'.toUInt8 := rfl

theorem uploadName_hidden (pid : ℕ) (sequence : UInt64) :
    validFilename (uploadName pid sequence) = false := by
  rw [Bool.eq_false_iff]
  intro hvalid
  exact (validFilename_spec hvalid).2.1 (uploadName_head pid sequence)

theorem storeAct_neutral {call : FtpCall} (h : ¬ StoresFiles call) (a : ftpCalls.Answer call) :
    storeAct options s ⟨call, a⟩ = s := by
  cases call with
  | lock => exact absurd trivial h
  | unlock => exact absurd trivial h
  | createUpload path => exact absurd trivial h
  | writeFile descriptor bytes => exact absurd trivial h
  | rename source target => exact absurd trivial h
  | unlink path => exact absurd trivial h
  | _ => rfl

/-- An operation that changes no file. -/
theorem neutral_turns {call : FtpCall} {k : ftpCalls.Answer call → Prog ftpCalls α}
    (hcall : ¬ StoresFiles call) (hquota : Quota options s.files)
    (hk : ∀ a, Sound options s ⟨call, a⟩ → StatusRead options s ⟨call, a⟩ →
      KeepsQuota options R (k a) (some s)) : KeepsQuota options R (ask call k) (some s) := by
  refine .inr ⟨?_, ?_, ?_⟩
  · rintro rfl
    exact hcall trivial
  · rintro rfl
    exact hcall trivial
  · rintro a s' ⟨hsound, rfl⟩ hread
    rw [storeAct_neutral hcall]
    exact ⟨hquota, hk a hsound hread⟩

theorem unlocked_turns (hquota : Quota options s.files) {text : String} :
    KeepsQuota options (Between options) (unlocked session text) (some s) := by
  refine neutral_turns id hquota fun _ _ _ => ?_
  exact .inl ⟨rfl, fun _ => ⟨trivial, id⟩⟩

/-- The scan counts what there is besides the file that is to be replaced. -/
theorem usage_turns (hquota : Quota options s.files) (names : List Bytes) {bytes : UInt64}
    {count : ℕ} (hbytes : bytes ≤ options.maxTotalBytes) :
    KeepsQuota options (fun turn used => turn = some s ∧ ∀ total number,
      used = some (total, number) → total ≤ options.maxTotalBytes ∧
        total.toNat = bytes.toNat +
          ((names.filter (· ≠ argument)).filterMap (visibleSize s.files)).sum ∧
        number = count + ((names.filter (· ≠ argument)).filterMap (visibleSize s.files)).length)
      (usage options argument names bytes count) (some s) := by
  induction names generalizing bytes count with
  | nil =>
    refine ⟨rfl, ?_⟩
    rintro total number ⟨⟩
    exact ⟨hbytes, rfl, rfl⟩
  | cons name rest ih =>
    -- a name that does not count
    have hskip : (name ≠ argument → visibleSize s.files name = none) →
        ((name :: rest).filter (· ≠ argument)).filterMap (visibleSize s.files) =
          (rest.filter (· ≠ argument)).filterMap (visibleSize s.files) := by
      intro hnone
      rw [List.filter_cons]
      split_ifs with hname
      · rw [List.filterMap_cons_none (hnone (by simpa using hname))]
      · rfl
    refine Prog.turns_ite (fun hguard => ?_) (fun hguard => ?_)
    · rw [hskip]
      · exact ih hbytes
      · intro hname
        have hinvalid : validFilename name = false := by simpa [hname] using hguard
        exact visibleSize_hidden hinvalid
    have hguard' : name ≠ argument ∧ validFilename name = true := by simpa using hguard
    obtain ⟨hname, hvalid⟩ := hguard'
    refine neutral_turns id hquota fun regular hsound hread => ?_
    have hbelow : nameBelow options (entryPath options name) = some name := nameBelow_valid hvalid
    refine Prog.turns_ite (fun hregular => ?_) (fun hregular => ?_)
    · -- its status is not that of a regular file, or cannot be read
      rw [hskip]
      · exact ih hbytes
      · intro _
        have hother : ∀ size, s.files.lookup name ≠ some (.regular size) := by
          intro size hsize
          cases regular with
          | none => exact hread name size hbelow hsize
          | some regular =>
            have htrue := (hsound name hbelow).mpr ⟨size, hsize⟩
            exact hregular (congrArg some htrue)
        rw [visibleSize, if_pos hvalid]
        cases hlookup : s.files.lookup name with
        | none => rfl
        | some entry =>
          cases entry with
          | regular size => exact absurd hlookup (hother size)
          | other => rfl
    · rw [not_not] at hregular
      subst hregular
      obtain ⟨length, hlength⟩ := (hsound name hbelow).mp rfl
      have hcounted : ((name :: rest).filter (· ≠ argument)).filterMap (visibleSize s.files) =
          length :: (rest.filter (· ≠ argument)).filterMap (visibleSize s.files) := by
        rw [List.filter_cons, if_pos (by simpa using hname), List.filterMap_cons_some]
        rw [visibleSize, if_pos hvalid, hlength]
        rfl
      refine neutral_turns id hquota fun size hsize _ => ?_
      cases size with
      | none => exact ⟨rfl, by rintro total number ⟨⟩⟩
      | some size =>
        obtain rfl : size.toNat = length := hsize name length hbelow hlength
        refine Prog.turns_ite (fun _ => ⟨rfl, by rintro total number ⟨⟩⟩) (fun hfits => ?_)
        have hsum : (bytes + size).toNat = bytes.toNat + size.toNat ∧
            bytes + size ≤ options.maxTotalBytes := by
          have hfit : size ≤ options.maxTotalBytes - bytes := by
            simp only [Bool.or_eq_true, decide_eq_true_eq, not_or] at hfits
            exact UInt64.not_lt.mp hfits.2
          rw [UInt64.le_iff_toNat_le, UInt64.toNat_sub_of_le _ _ hbytes] at hfit
          rw [UInt64.le_iff_toNat_le] at hbytes ⊢
          rw [UInt64.toNat_add]
          have hmax := options.maxTotalBytes.toNat_lt
          omega
        rw [hcounted, List.sum_cons, List.length_cons]
        have hrest := @ih (bytes + size) (count + 1) hsum.2
        rw [hsum.1] at hrest
        simpa only [Nat.add_assoc, Nat.add_comm 1] using hrest

/-- The end of an upload that is given up. -/
theorem discard_turns (hquota : Quota options s.files) (hhidden : validFilename name = false)
    (htemporary : nameBelow options upload.temporary = some name) {text : String} :
    KeepsQuota options (Between options)
      (ask (.close upload.descriptor) fun _ => ask (.unlink upload.temporary) fun _ =>
        unlocked session text) (some s) := by
  refine neutral_turns id hquota fun _ _ _ => ?_
  refine .inr ⟨by rintro ⟨⟩, by rintro ⟨⟩, ?_⟩
  rintro removed s' ⟨-, rfl⟩ -
  have hkept : Quota options (storeAct options s ⟨.unlink upload.temporary, removed⟩).files := by
    cases removed with
    | false => exact hquota
    | true =>
      have hact : (storeAct options s ⟨.unlink upload.temporary, true⟩).files =
          s.files.erase name := by
        simp only [storeAct, htemporary]
      rw [hact]
      exact hquota.of_visible (visible_erase_hidden hhidden)
  exact ⟨hkept, unlocked_turns hkept⟩

/-- The file that comes in takes its place within the quota. -/
theorem Receiving.replaced (h : Receiving options upload name 0 s) {renamed : Bool} :
    Quota options (storeAct options s
      ⟨.rename upload.temporary (entryPath options upload.argument), renamed⟩).files := by
  obtain ⟨size, hlookup, htotal, -⟩ := h.size
  have htarget : nameBelow options (entryPath options upload.argument) = some upload.argument :=
    nameBelow_valid h.valid
  cases renamed with
  | false => exact h.quota
  | true =>
    have hact : (storeAct options s
        ⟨.rename upload.temporary (entryPath options upload.argument), true⟩).files =
          AList.insert upload.argument (.regular size) (s.files.erase name) := by
      simp only [storeAct, h.temporary, htarget, hlookup]
    have hlimit : size ≤ upload.limit.toNat := by
      have htotal_le := UInt64.le_iff_toNat_le.mp h.total_le
      omega
    have hvisible : visible (AList.insert upload.argument (.regular size) (s.files.erase name)) =
        size :: others s.files upload.argument := visible_replace h.hidden h.valid
    rw [hact]
    refine ⟨?_, ?_, ?_⟩
    · rw [hvisible, List.length_cons]
      exact h.count_lt
    · rw [hvisible, List.forall_mem_cons]
      exact ⟨hlimit.trans (UInt64.le_iff_toNat_le.mp h.limit_le), h.quota.each_others⟩
    · rw [hvisible, List.sum_cons]
      have hsum := h.sum_le
      omega

theorem persist_turns (h : Receiving options upload name 0 s) :
    KeepsQuota options (fun turn _ => ∃ s', turn = some s' ∧ Quota options s'.files)
      (persist options upload true) (some s) := by
  have hquota := h.quota
  refine neutral_turns id hquota fun synced _ _ => ?_
  refine Prog.turns_ite (fun _ => ⟨s, rfl, hquota⟩) (fun _ => ?_)
  refine neutral_turns id hquota fun closed _ _ => ?_
  refine Prog.turns_ite (fun _ => ⟨s, rfl, hquota⟩) (fun _ => ?_)
  refine .inr ⟨by rintro ⟨⟩, by rintro ⟨⟩, ?_⟩
  rintro renamed s' ⟨-, rfl⟩ -
  exact ⟨h.replaced, _, rfl, h.replaced⟩

theorem syncRoot_turns (hquota : Quota options s.files) :
    KeepsQuota options (fun turn _ => turn = some s) syncRoot (some s) := by
  refine neutral_turns id hquota fun directory _ _ => ?_
  cases directory with
  | none => exact rfl
  | some directory =>
    refine neutral_turns id hquota fun _ _ _ => ?_
    exact neutral_turns id hquota fun _ _ _ => rfl

/-- What comes behind the transfer: the file is complete, or given up. -/
theorem finishUpload_turns {received : Bool} (hquota : Quota options s.files)
    (hhidden : validFilename name = false)
    (htemporary : nameBelow options upload.temporary = some name)
    (hcomplete : received = true → Receiving options upload name 0 s) :
    KeepsQuota options (Between options) (finishUpload options session upload received)
      (some s) := by
  have hpersist : KeepsQuota options (fun turn _ => ∃ s', turn = some s' ∧ Quota options s'.files)
      (persist options upload received) (some s) := by
    cases received with
    | false => exact ⟨s, rfl, hquota⟩
    | true => exact persist_turns (hcomplete rfl)
  refine Prog.turns_bind hpersist ?_
  rintro _ persisted ⟨s', rfl, hquota'⟩
  refine Prog.turns_ite (fun _ => ?_) (fun _ => discard_turns hquota' hhidden htemporary)
  refine Prog.turns_bind (syncRoot_turns hquota') ?_
  rintro _ _ rfl
  exact unlocked_turns hquota'

theorem closeUpload_turns {received : Bool} (hquota : Quota options s.files)
    (hhidden : validFilename name = false)
    (htemporary : nameBelow options upload.temporary = some name)
    (hcomplete : received = true → Receiving options upload name 0 s) :
    KeepsQuota options (Between options) (closeUpload options session upload received)
      (some s) :=
  neutral_turns id hquota fun _ _ _ => finishUpload_turns hquota hhidden htemporary hcomplete

theorem receiveRound_turns (h : Receiving options upload name 0 s) :
    KeepsQuota options (Between options) (receiveRound options session upload) (some s) := by
  have hquota := h.quota
  have hgiveUp : ∀ upload' : Upload, upload'.temporary = upload.temporary →
      KeepsQuota options (Between options) (closeUpload options session upload' false) (some s) := by
    intro upload' hsame
    exact closeUpload_turns hquota h.hidden (hsame ▸ h.temporary) (by simp)
  have hcomplete : KeepsQuota options (Between options) (closeUpload options session upload true)
      (some s) := closeUpload_turns hquota h.hidden h.temporary fun _ => h
  refine neutral_turns id hquota fun stopped _ _ => ?_
  refine Prog.turns_ite (fun _ => hcomplete) (fun _ => ?_)
  refine neutral_turns id hquota fun readable _ _ => ?_
  refine Prog.turns_ite (fun _ => hgiveUp upload rfl) (fun _ => ?_)
  refine neutral_turns id hquota fun received hsound _ => ?_
  cases received with
  | interrupted => exact ⟨name, h⟩
  | failed => exact hgiveUp upload rfl
  | bytes bytes =>
    refine Prog.turns_ite (fun _ => hcomplete) (fun _ => ?_)
    refine Prog.turns_ite (fun _ => hgiveUp _ rfl) (fun hfits => ?_)
    obtain ⟨size, hlookup, htotal, hsmall⟩ := h.size
    have hlength : bytes.length ≤ 8192 := hsound
    -- the count of the bytes does not wrap: no file is that large
    have hadd : (upload.total + UInt64.ofNat bytes.length).toNat =
        upload.total.toNat + bytes.length := by
      rw [UInt64.toNat_add, UInt64.toNat_ofNat']
      omega
    exact ⟨name, {
      quota := hquota
      valid := h.valid
      hidden := h.hidden
      temporary := h.temporary
      descriptor := h.descriptor
      size := ⟨size, hlookup, by rw [hadd]; omega, hsmall⟩
      total_le := UInt64.not_lt.mp hfits
      limit_le := h.limit_le
      count_lt := h.count_lt
      sum_le := h.sum_le }⟩

theorem writeRound_turns {rest : Bytes} (h : Receiving options upload name rest.length s) :
    KeepsQuota options (Between options) (writeRound options session upload rest) (some s) := by
  have hgiveUp : ∀ {s'}, Quota options s'.files →
      KeepsQuota options (Between options) (closeUpload options session upload false) (some s') :=
    fun hquota => closeUpload_turns hquota h.hidden h.temporary (by simp)
  refine Prog.turns_ite (fun hnil => ?_) (fun _ => ?_)
  · rw [hnil] at h
    exact ⟨name, h⟩
  obtain ⟨size, hlookup, htotal, hsmall⟩ := h.size
  refine .inr ⟨by rintro ⟨⟩, by rintro ⟨⟩, ?_⟩
  rintro written s' ⟨hsound, rfl⟩ -
  cases written with
  | interrupted => exact ⟨h.quota, name, h⟩
  | failed => exact ⟨h.quota, hgiveUp h.quota⟩
  | bytes count =>
    obtain ⟨hcount, hgrown⟩ := hsound
    have hfiles : storeAct options s ⟨.writeFile upload.descriptor rest, .bytes count⟩ =
        { s with files := s.files.insert name (.regular (size + count)) } := by
      have hmodify : s.files.modify name (Entry.grow count) =
          s.files.insert name (.regular (size + count)) := by
        rw [Table.modify, hlookup]
        rfl
      simp only [storeAct, h.descriptor, hmodify]
    have hkept : Quota options (s.files.insert name (.regular (size + count))) :=
      h.quota.of_visible (visible_insert_hidden h.hidden)
    rw [hfiles]
    refine ⟨hkept, Prog.turns_ite (fun _ => hgiveUp hkept) (fun _ => ?_)⟩
    refine ⟨name, {
      quota := hkept
      valid := h.valid
      hidden := h.hidden
      temporary := h.temporary
      descriptor := h.descriptor
      size := ⟨size + count, AList.lookup_insert _, ?_, hgrown name size h.descriptor hlookup⟩
      total_le := h.total_le
      limit_le := h.limit_le
      count_lt := ?_
      sum_le := ?_ }⟩
    · rw [List.length_drop]
      omega
    · rw [others_insert_hidden h.hidden]
      exact h.count_lt
    · rw [others_insert_hidden h.hidden]
      exact h.sum_le

/-- The other files leave room for one more. -/
theorem beginUpload_turns {limit : UInt64} (hquota : Quota options s.files)
    (hvalid : validFilename argument = true)
    (hcount : (others s.files argument).length < options.maxFiles)
    (hlimit : limit ≤ options.maxFileBytes)
    (hsum : (others s.files argument).sum + limit.toNat ≤ options.maxTotalBytes.toNat) :
    KeepsQuota options (Between options) (beginUpload options pid session argument limit)
      (some s) := by
  refine neutral_turns id hquota fun sequence _ _ => ?_
  have hbelow : nameBelow options (entryPath options (uploadName pid sequence)) =
      some (uploadName pid sequence) := by
    refine nameBelow_entryPath ?_
    rw [uploadName_head]
    decide
  have hhidden := uploadName_hidden pid sequence
  refine .inr ⟨by rintro ⟨⟩, by rintro ⟨⟩, ?_⟩
  rintro created s' ⟨-, rfl⟩ -
  cases created with
  | none => exact ⟨hquota, unlocked_turns hquota⟩
  | some descriptor =>
    have hact : storeAct options s
        ⟨.createUpload (entryPath options (uploadName pid sequence)), some descriptor⟩ =
          { files := s.files.insert (uploadName pid sequence) (.regular 0)
            upload := Function.update s.upload descriptor (some (uploadName pid sequence)) } := by
      simp only [storeAct, hbelow]
    have hkept : Quota options (s.files.insert (uploadName pid sequence) (.regular 0)) :=
      hquota.of_visible (visible_insert_hidden hhidden)
    rw [hact]
    refine ⟨hkept, neutral_turns id hkept fun _ _ _ => ?_⟩
    refine neutral_turns id hkept fun accepted _ _ => ?_
    refine Prog.turns_ite (fun _ => ?_) (fun _ => ?_)
    · refine ⟨uploadName pid sequence, {
        quota := hkept
        valid := hvalid
        hidden := hhidden
        temporary := hbelow
        descriptor := Function.update_self ..
        size := ⟨0, AList.lookup_insert _, rfl, by decide⟩
        total_le := UInt64.zero_le
        limit_le := hlimit
        count_lt := ?_
        sum_le := ?_ }⟩
      · rw [others_insert_hidden hhidden]
        exact hcount
      · rw [others_insert_hidden hhidden]
        exact hsum
    · exact finishUpload_turns hkept hhidden hbelow (by simp)

/-- `STOR`, which waits for the lock and holds it from there on. -/
theorem stor_turns :
    KeepsQuota options (Between options) (stor options pid session argument) none := by
  refine Prog.turns_ite (fun _ => .inl ⟨id, fun _ => ⟨trivial, id⟩⟩) (fun hguard => ?_)
  have hvalid : validFilename argument = true := by
    simp only [Bool.or_eq_true, Bool.not_eq_true', not_or, Bool.not_eq_false] at hguard
    exact hguard.1
  refine .inr ⟨rfl, fun _ s hquota => ?_⟩
  refine neutral_turns id hquota fun listing hlisting _ => ?_
  refine Prog.turns_bind (usage_turns hquota listing.1 UInt64.zero_le) ?_
  rintro _ used ⟨rfl, hused⟩
  cases herror : listing.2 with
  | true => exact unlocked_turns hquota
  | false =>
    cases used with
    | none => exact unlocked_turns hquota
    | some used =>
      obtain ⟨total, number⟩ := used
      obtain ⟨hle, htotal, hnumber⟩ := hused total number rfl
      refine Prog.turns_ite (fun _ => unlocked_turns hquota) (fun hroom => ?_)
      simp only [Bool.or_eq_true, decide_eq_true_eq, not_or, not_le] at hroom
      -- the listing is complete, so that the other files are what has been counted
      have hperm : ((listing.1.filter (· ≠ argument)).filterMap (visibleSize s.files)).Perm
          (others s.files argument) := ((hlisting herror).filter _).filterMap _
      rw [hperm.sum_nat, UInt64.toNat_zero, Nat.zero_add] at htotal
      rw [hperm.length_eq, Nat.zero_add] at hnumber
      refine beginUpload_turns hquota hvalid (hnumber ▸ hroom.1) ?_ ?_
      · exact UInt64.le_iff_toNat_le.mpr (by rw [UInt64.toNat_min]; exact Nat.min_le_left ..)
      · rw [UInt64.toNat_min, UInt64.toNat_sub_of_le _ _ hle, ← htotal]
        rw [UInt64.le_iff_toNat_le] at hle
        omega

/-- A round that stores nothing needs no lock. -/
theorem behaves_turns {p : Prog ftpCalls (Option Phase)} (h : Behaves options session False p) :
    KeepsQuota options (Between options) p none := by
  have hquiet : p.Within (¬ StoresFiles ·) (Between options none) := by
    refine h.mono (fun call htame => htame.2.2.2) fun result hcontinues => ?_
    cases result with
    | none => trivial
    | some phase =>
      obtain ⟨-, hproper, hstoring⟩ := hcontinues phase rfl
      exact ⟨hproper, hstoring⟩
  exact hquiet.turns fun _ => id

theorem refusePassword_turns :
    KeepsQuota options (Between options) (refusePassword session) none := by
  refine .inl ⟨id, fun _ => Prog.turns_ite (fun _ => ?_) (fun _ => ⟨trivial, id⟩)⟩
  exact Prog.turns_ite (fun _ => .inl ⟨id, fun _ => trivial⟩) (fun _ => trivial)

theorem pass_turns :
    KeepsQuota options (Between options) (pass session argument) none := by
  refine Prog.turns_ite (fun _ => .inl ⟨id, fun verified => ?_⟩) (fun _ => refusePassword_turns)
  refine Prog.turns_ite (fun _ => ?_) (fun _ => refusePassword_turns)
  exact .inl ⟨id, fun _ => ⟨trivial, id⟩⟩

theorem user_turns : KeepsQuota options (Between options) (user session argument) none :=
  Prog.turns_ite (fun _ => .inl ⟨id, fun _ => ⟨trivial, id⟩⟩)
    (fun _ => .inl ⟨id, fun _ => ⟨trivial, id⟩⟩)

theorem dispatch_turns {command : Bytes} :
    KeepsQuota options (Between options) (dispatch options pid session command argument) none := by
  by_cases huser : command = ascii "USER"
  · rw [huser]
    exact user_turns
  by_cases hpass : command = ascii "PASS"
  · rw [hpass]
    exact pass_turns
  by_cases hstor : command = ascii "STOR"
  · have hdispatch : dispatch options pid session (ascii "STOR") argument =
        if !session.authenticated then
          answer "530 Please login with USER and PASS\r\n" (next session)
        else stor options pid session argument := rfl
    rw [hstor, hdispatch]
    exact Prog.turns_ite (fun _ => .inl ⟨id, fun _ => ⟨trivial, id⟩⟩) (fun _ => stor_turns)
  · exact behaves_turns (dispatch_within huser hpass hstor)

/-- What one round does, without the lock or with it. -/
theorem serve_turns {turn : Option Storage} {phase : Phase}
    (h : Between options turn (some phase)) :
    KeepsQuota options (Between options) (serve options pid phase) turn := by
  cases turn with
  | none =>
    obtain ⟨hproper, hstoring⟩ := h
    cases phase with
    | connected =>
      refine .inl ⟨id, fun sent => Prog.turns_ite (fun _ => trivial) (fun _ => ?_)⟩
      refine .inl ⟨id, fun known => Prog.turns_ite (fun _ => trivial) (fun _ => ?_)⟩
      exact ⟨trivial, id⟩
    | command session =>
      refine .inl ⟨id, fun line => ?_⟩
      cases line with
      | none => exact Prog.turns_ite (fun _ => .inl ⟨id, fun _ => trivial⟩) (fun _ => trivial)
      | some line => exact dispatch_turns
    | sending session descriptor => exact behaves_turns (sendRound_within hproper)
    | receiving session upload => exact absurd trivial hstoring
    | writing session upload rest => exact absurd trivial hstoring
  | some s =>
    cases phase with
    | receiving session upload =>
      obtain ⟨name, hreceiving⟩ := h
      exact receiveRound_turns hreceiving
    | writing session upload rest =>
      obtain ⟨name, hreceiving⟩ := h
      exact writeRound_turns hreceiving
    | _ => exact h.elim

end Locked

/-! ### Every run -/

/-- Connections that have just been accepted. -/
def accepted (options : ServerOptions) (pid : ℕ) (ι : Type) (s : Storage) :
    Threads ftpCalls ι Phase Storage where
  shared := s
  holder := none
  left _ := serve options pid .connected

theorem harmless : Threads.Harmless (ftpWorld options) storageMutex (¬ StoresFiles ·) := by
  intro call hcall
  refine ⟨?_, ?_, ?_⟩
  · rintro rfl
    exact hcall trivial
  · rintro rfl
    exact hcall trivial
  · rintro s a s' ⟨-, rfl⟩
    exact storeAct_neutral hcall a

/-- However many connections there are, whatever they ask for and however their operations
interleave: as long as no scan of STOR fails to read the status of a regular file, a storage that is
within its quota stays there. -/
theorem quota_kept {ι : Type} [DecidableEq ι] {options : ServerOptions} {pid : ℕ} {s : Storage}
    {x : Threads ftpCalls ι Phase Storage} (hquota : Quota options s.files)
    (hrun : Threads.Run (ftpWorld options) storageMutex (serve options pid) (StatusRead options)
      (accepted options pid ι s) x) : Quota options x.shared.files := by
  have hconnected : Between options none (some .connected) := ⟨trivial, id⟩
  refine hrun.invariant harmless (fun turn phase hphase => serve_turns hphase) ⟨hquota, ?_⟩
  intro i
  show KeepsQuota options (Between options) (serve options pid .connected) none
  exact serve_turns hconnected

/-! ### A file more than there may be -/

section Sample

/-- What the only peer says, by the number of the moves so far. -/
def sampleLine (moves : ℕ) : Bytes :=
  if moves < 5 then ascii "USER admin"
  else if moves < 9 then ascii "PASS secret"
  else if moves < 14 then ascii "EPSV"
  else ascii "STOR b"

/-- A peer that stores an empty file, on a system where the status of a file can be read or not. -/
def sampleAnswer (readable : Bool) (moves : ℕ) (s : Storage) :
    (call : FtpCall) → ftpCalls.Answer call
  | .readLine => some (sampleLine moves)
  | .openListener => some 2000
  | .localAddress => some 0
  | .listRoot => (s.files.keys, false)
  | .isRegularFile path =>
    if readable then
      some (((nameBelow sampleOptions path).bind (s.files.lookup ·)).bind Entry.size?).isSome
    else none
  | .fileSize _ => none
  | .openFile _ | .createUpload _ | .openRoot => some 5
  | .fstat _ => none
  | .recvData | .readFile _ => .bytes []
  | .writeFile _ _ => .failed
  | .nextUpload => 0
  | .reply _ | .peerAddress | .verifyPassword _ _ | .acceptData | .sendListing _ | .sendData _
  | .waitData | .close _ | .stopRequested | .fsync _ | .rename _ _ | .unlink _ => true
  | .closePassive | .closeData | .lock | .unlock => ()

/-- A root that holds some empty files. -/
def sampleStorage (names : List Bytes) : Storage where
  files := names.foldr (fun name files => files.insert name (.regular 0)) ∅
  upload _ := none

/-- The storage once the only peer has made some moves. -/
def sampleRun (readable : Bool) (names : List Bytes) (moves : ℕ) :
    Threads ftpCalls Unit Phase Storage :=
  Threads.alone storageMutex (serve sampleOptions 1) (sampleAnswer readable) (storeAct sampleOptions)
    (accepted sampleOptions 1 Unit (sampleStorage names)) moves

theorem sampleAnswer_sound (readable : Bool) (moves : ℕ) (s : Storage) (call : FtpCall) :
    Sound sampleOptions s ⟨call, sampleAnswer readable moves s call⟩ := by
  cases call with
  | listRoot => exact fun _ => .refl _
  | isRegularFile path =>
    cases readable with
    | false => trivial
    | true =>
      intro name hbelow
      rw [hbelow, Option.bind_some, Option.isSome_iff_exists]
      refine exists_congr fun size => ?_
      cases s.files.lookup name with
      | none => simp
      | some entry => cases entry <;> simp [Entry.size?]
  | recvData => exact Nat.zero_le _
  | _ => trivial

theorem sampleAnswer_read (moves : ℕ) (s : Storage) (call : FtpCall) :
    StatusRead sampleOptions s ⟨call, sampleAnswer true moves s call⟩ := by
  cases call <;> trivial

theorem sampleRun_run {Allowed : Storage → Act ftpCalls → Prop} {readable : Bool}
    {names : List Bytes} (moves : ℕ)
    (hallowed : ∀ n s call, Allowed s ⟨call, sampleAnswer readable n s call⟩) :
    Threads.Run (ftpWorld sampleOptions) storageMutex (serve sampleOptions 1) Allowed
      (accepted sampleOptions 1 Unit (sampleStorage names)) (sampleRun readable names moves) := by
  refine Threads.run_alone (fun n s call => ?_) hallowed moves
  exact ⟨sampleAnswer_sound readable n s call, rfl⟩

theorem stored_within : Quota sampleOptions (sampleRun true [] 28).shared.files ∧
    visible (sampleRun true [] 28).shared.files = [0] :=
  ⟨quota_kept ⟨by decide +kernel, by decide +kernel, by decide +kernel⟩
    (sampleRun_run 28 sampleAnswer_read), by decide +kernel⟩

/-- One file is there and one is allowed; its status cannot be read in the scan, and a second file
is stored beside it. -/
theorem unread_status_exceeds :
    Quota sampleOptions (sampleStorage [ascii "a"]).files ∧
      Threads.Run (ftpWorld sampleOptions) storageMutex (serve sampleOptions 1) (fun _ _ => True)
        (accepted sampleOptions 1 Unit (sampleStorage [ascii "a"]))
        (sampleRun false [ascii "a"] 28) ∧
      ¬ Quota sampleOptions (sampleRun false [ascii "a"] 28).shared.files := by
  refine ⟨⟨by decide +kernel, by decide +kernel, by decide +kernel⟩,
    sampleRun_run 28 fun _ _ _ => trivial, ?_⟩
  have htwo : (visible (sampleRun false [ascii "a"] 28).shared.files).length = 2 := by
    decide +kernel
  intro hquota
  have hone : 2 ≤ 1 := htwo ▸ hquota.count
  omega

end Sample

end Uhf.Ftp
