/-
What a control connection may do with the files.

What has been said on a connection is read off its trace: `LoggedIn` looks for the last USER and
the PASS behind it, `failures` counts the refused ones.  The session only repeats both.

* `Tracks` — what the session of a connection says of its trace;
* `dispatch_within` — a command other than USER and PASS keeps the session;
* `serve_heeds` — what one round does;
* `access_controlled` — every run of a connection.
-/
import UhfGateway.Effects.History
import UhfGateway.Domain.Decimal
import UhfGateway.Posix.Paths
import UhfGateway.Ftp.Server

namespace Uhf.Ftp

open Effects Posix
open Web (appendPath)

/-! ### What has been said -/

/-- The control line that an act has read. -/
def lineOf (act : Act ftpCalls) : Option Bytes :=
  match act with
  | ⟨.readLine, line⟩ => line
  | _ => none

/-- A password has been accepted. -/
def verifies (act : Act ftpCalls) : Bool :=
  match act with
  | ⟨.verifyPassword _ _, verified⟩ => verified
  | _ => false

/-- A line with this command has been read. -/
def Says (command : String) (act : Act ftpCalls) : Prop :=
  ∃ line, lineOf act = some line ∧ commandOf line = ascii command

/-- The user named last is the administrator. -/
def NamesAdmin (trace : Trace ftpCalls) : Prop :=
  ∃ earlier line later, trace = earlier ++ ⟨.readLine, some line⟩ :: later ∧
    commandOf line = ascii "USER" ∧ argumentOf line = ascii "admin" ∧
    ∀ act ∈ later, ¬ Says "USER" act

/-- The last PASS comes behind the last USER, which has named the administrator, and its password
has been accepted. -/
def LoggedIn (trace : Trace ftpCalls) : Prop :=
  ∃ earlier line later, NamesAdmin earlier ∧ commandOf line = ascii "PASS" ∧
    trace = earlier ++ ⟨.readLine, some line⟩ ::
      ⟨.verifyPassword (ascii "admin") (argumentOf line), true⟩ :: later ∧
    ∀ act ∈ later, ¬ Says "USER" act ∧ ¬ Says "PASS" act

def countFailure (count : ℕ) (act : Act ftpCalls) : ℕ :=
  if verifies act then 0
  else if (lineOf act).map commandOf = some (ascii "PASS") then count + 1 else count

/-- How many PASS there have been since the last one that was accepted. -/
def failures (trace : Trace ftpCalls) : ℕ := trace.foldl countFailure 0

/-! ### What may be done -/

/-- Lists, sizes, reads or writes a file. -/
def TouchesFiles : FtpCall → Prop
  | .listRoot | .isRegularFile _ | .fileSize _ | .openFile _ | .fstat _ | .readFile _ | .close _
  | .sendListing _ | .createUpload _ | .writeFile _ _ | .fsync _ | .rename _ _ | .unlink _
  | .openRoot => True
  | _ => False

/-- The path of an entry of the root itself; no byte of its name ends a C string. -/
structure InRoot (options : ServerOptions) (path name : Bytes) : Prop where
  path_eq : path = entryPath options name
  components_eq : components path = components options.root ++ [name]
  slash_notMem : '/'.toUInt8 ∉ name
  backslash_notMem : '\\'.toUInt8 ∉ name
  zero_notMem : 0 ∉ name

def OrdinaryFile (options : ServerOptions) (path : Bytes) : Prop :=
  ∃ name, InRoot options path name ∧ name.head? ≠ some '.'.toUInt8

/-- One of the server's own temporaries. -/
def UploadFile (options : ServerOptions) (path : Bytes) : Prop :=
  ∃ name, InRoot options path name ∧ ascii ".upload-" <+: name

/-- The files of an operation are entries of the root. -/
def Direct (options : ServerOptions) : FtpCall → Prop
  | .openFile path | .isRegularFile path | .fileSize path => OrdinaryFile options path
  | .sendListing text => ∃ namesOnly entries, text = listing namesOnly entries ∧
      ∀ entry ∈ entries, OrdinaryFile options (entryPath options entry.name)
  | .createUpload path | .unlink path => UploadFile options path
  | .rename source target => UploadFile options source ∧ OrdinaryFile options target
  | _ => True

/-- What is allowed behind the acts of a connection. -/
def Permitted (options : ServerOptions) (trace : Trace ftpCalls) (call : FtpCall) : Prop :=
  (TouchesFiles call → LoggedIn trace) ∧ (call = .readLine → failures trace < 3) ∧
    Direct options call

/-! ### The names -/

section Names

variable {options : ServerOptions} {name : Bytes}

theorem validFilename_spec (h : validFilename name = true) :
    name ≠ [] ∧ name.head? ≠ some '.'.toUInt8 ∧ '/'.toUInt8 ∉ name ∧ '\\'.toUInt8 ∉ name ∧
      0 ∉ name := by
  rw [validFilename] at h
  split_ifs at h with hshape
  push Not at hshape
  obtain ⟨hne, -, -, -, hdot, hslash, hbackslash⟩ := hshape
  refine ⟨hne, hdot, hslash, hbackslash, fun hzero => ?_⟩
  exact absurd (List.all_eq_true.mp h 0 hzero) (by decide)

theorem components_appendPath {directory : Bytes} (h : IsName name) :
    components (appendPath directory name) = components directory ++ [name] := by
  have hhead : name.head? ≠ some '/'.toUInt8 := by
    intro hhead
    exact h.2 (List.mem_of_mem_head? hhead)
  rw [appendPath, if_neg hhead]
  split_ifs with hplain
  · obtain rfl | hlast := hplain
    · rw [List.nil_append, h.components]
      rfl
    · obtain ⟨before, rfl⟩ := List.getLast?_eq_some_iff.mp hlast
      rw [List.append_assoc, List.singleton_append]
      have hslash : ∀ rest, components (before ++ '/'.toUInt8 :: rest) =
        components before ++ components rest := fun rest => components_append_slash
      rw [hslash, hslash, h.components]
      simp [components, names]
  · have hslash : components (directory ++ '/'.toUInt8 :: name) =
      components directory ++ components name := components_append_slash
    rw [List.append_assoc]
    exact hslash.trans (by rw [h.components])

theorem inRoot_entryPath (hname : IsName name) (hbackslash : '\\'.toUInt8 ∉ name)
    (hzero : 0 ∉ name) : InRoot options (entryPath options name) name :=
  ⟨rfl, components_appendPath hname, hname.2, hbackslash, hzero⟩

theorem ordinaryFile (h : validFilename name = true) :
    OrdinaryFile options (entryPath options name) := by
  obtain ⟨hne, hdot, hslash, hbackslash, hzero⟩ := validFilename_spec h
  have hname : IsName name := by
    refine ⟨?_, hslash⟩
    have hnotDot : name ≠ [Posix.dot] := by
      rintro rfl
      exact hdot rfl
    simp [names, hne, hnotDot]
  exact ⟨name, inRoot_entryPath hname hbackslash hzero, hdot⟩

theorem notMem_decimal {character : UInt8} (h : isDigit character = false) (n : ℕ) :
    character ∉ decimal n := by
  intro hmem
  have hdigit := List.all_eq_true.mp (all_isDigit_decimal n) character hmem
  rw [h] at hdigit
  cases hdigit

theorem uploadFile (pid : ℕ) (sequence : UInt64) :
    UploadFile options (entryPath options (uploadName pid sequence)) := by
  have hother : ∀ {character : UInt8}, isDigit character = false →
      character ∉ ascii ".upload-" → character ∉ ascii "-" →
      character ∉ uploadName pid sequence := by
    intro character hdigit hfirst hdash
    simp only [uploadName, List.mem_append, not_or]
    exact ⟨⟨⟨hfirst, notMem_decimal hdigit pid⟩, hdash⟩, notMem_decimal hdigit _⟩
  have hprefix : ascii ".upload-" <+: uploadName pid sequence := by
    rw [uploadName, List.append_assoc, List.append_assoc]
    exact List.prefix_append ..
  have hname : IsName (uploadName pid sequence) := by
    refine ⟨?_, hother (by decide) (by decide) (by decide)⟩
    obtain ⟨rest, hrest⟩ := hprefix
    rw [← hrest]
    simp [names, ascii, Posix.dot]
  exact ⟨_, inRoot_entryPath hname (hother (by decide) (by decide) (by decide))
    (hother (by decide) (by decide) (by decide)), hprefix⟩

end Names

/-! ### Commands that keep the login -/

def Calm : FtpCall → Prop
  | .readLine | .verifyPassword _ _ => False
  | _ => True

/-- Takes or gives back the lock of the storage, or changes its files. -/
def StoresFiles : FtpCall → Prop
  | .lock | .unlock | .createUpload _ | .writeFile _ _ | .rename _ _ | .unlink _ => True
  | _ => False

/-- An operation that needs no more than what the session says, of a program that stores a file
only if `storing`. -/
def Tame (options : ServerOptions) (session : Session) (storing : Prop) (call : FtpCall) : Prop :=
  Calm call ∧ (TouchesFiles call → session.authenticated = true) ∧ Direct options call ∧
    (StoresFiles call → storing)

structure SameLogin (session session' : Session) : Prop where
  username : session'.username = session.username
  authenticated : session'.authenticated = session.authenticated
  failedPasswords : session'.failedPasswords = session.failedPasswords

def Phase.session : Phase → Session
  | .connected => {}
  | .command session | .sending session _ | .receiving session _ | .writing session _ _ => session

/-- A transfer is that of a user who is logged in, to a file of the root. -/
def Proper (options : ServerOptions) : Phase → Prop
  | .connected | .command _ => True
  | .sending session _ => session.authenticated = true
  | .receiving session upload | .writing session upload _ =>
    session.authenticated = true ∧ UploadFile options upload.temporary ∧
      validFilename upload.argument = true

def Phase.Storing : Phase → Prop
  | .receiving _ _ | .writing _ _ _ => True
  | _ => False

def Continues (options : ServerOptions) (session : Session) (storing : Prop)
    (result : Option Phase) : Prop :=
  ∀ phase, result = some phase → SameLogin session phase.session ∧ Proper options phase ∧
    (phase.Storing → storing)

/-- A round that does what the session allows and leaves the login as it is. -/
abbrev Behaves (options : ServerOptions) (session : Session) (storing : Prop)
    (p : Prog ftpCalls (Option Phase)) : Prop :=
  p.Within (Tame options session storing) (Continues options session storing)

section Commands

variable {options : ServerOptions} {session session' : Session} {argument : Bytes} {pid : ℕ}
  {descriptor : ℕ} {upload : Upload} {storing : Prop}

theorem tame_file {call : FtpCall} (hcalm : Calm call) (hauth : session.authenticated = true)
    (hdirect : Direct options call) (hstores : StoresFiles call → storing) :
    Tame options session storing call :=
  ⟨hcalm, fun _ => hauth, hdirect, hstores⟩

theorem continues_some {phase : Phase} (hsame : SameLogin session phase.session)
    (hproper : Proper options phase) (hstoring : phase.Storing → storing) :
    Continues options session storing (some phase) := by
  rintro _ ⟨⟩
  exact ⟨hsame, hproper, hstoring⟩

theorem continues_none : Continues options session storing none := by
  rintro _ ⟨⟩

theorem next_within (h : SameLogin session session') :
    Behaves options session storing (next session') :=
  continues_some h trivial False.elim

theorem answer_within {text : String} {α : Type} {k : Prog ftpCalls α} {R : α → Prop}
    (h : k.Within (Tame options session storing) R) :
    (answer text k).Within (Tame options session storing) R :=
  ⟨⟨trivial, False.elim, trivial, False.elim⟩, fun _ => h⟩

theorem closePassive_within {α : Type} {k : Prog ftpCalls α} {R : α → Prop}
    (h : k.Within (Tame options session storing) R) :
    (closePassive session' k).Within (Tame options session storing) R := by
  refine Prog.within_ite (fun _ => ?_) (fun _ => h)
  exact ⟨⟨trivial, False.elim, trivial, False.elim⟩, fun _ => h⟩

theorem leave_within :
    Behaves options session storing (leave session') :=
  closePassive_within continues_none

/-- The session without its passive socket. -/
theorem sameLogin_used : SameLogin session { session with passive := false } := ⟨rfl, rfl, rfl⟩

theorem openPassive_within {extended : Bool} :
    Behaves options session storing (openPassive session extended) := by
  refine closePassive_within ⟨⟨trivial, False.elim, trivial, False.elim⟩, fun listener => ?_⟩
  cases listener with
  | none => exact answer_within (next_within ⟨rfl, rfl, rfl⟩)
  | some port =>
    refine Prog.within_ite (fun _ => ?_) (fun _ => ?_)
    · exact ⟨⟨trivial, False.elim, trivial, False.elim⟩, fun _ => next_within ⟨rfl, rfl, rfl⟩⟩
    · refine ⟨⟨trivial, False.elim, trivial, False.elim⟩, fun address => ?_⟩
      cases address with
      | none =>
        refine ⟨⟨trivial, False.elim, trivial, False.elim⟩, fun _ => ?_⟩
        exact answer_within (next_within ⟨rfl, rfl, rfl⟩)
      | some ip =>
        exact ⟨⟨trivial, False.elim, trivial, False.elim⟩, fun _ => next_within ⟨rfl, rfl, rfl⟩⟩

theorem unlocked_within (hstoring : storing) (hsame : SameLogin session session') {text : String} :
    Behaves options session storing (unlocked session' text) :=
  answer_within ⟨⟨trivial, False.elim, trivial, fun _ => hstoring⟩, fun _ => next_within hsame⟩

section LoggedInOnly

variable (hauth : session.authenticated = true)
include hauth

theorem openRegular_within {α : Type} {k : Option (ℕ × Int) → Prog ftpCalls α} {R : α → Prop}
    (hvalid : validFilename argument = true)
    (hk : ∀ opened, (k opened).Within (Tame options session storing) R) :
    (openRegular options argument k).Within (Tame options session storing) R := by
  refine ⟨tame_file trivial hauth (ordinaryFile hvalid) False.elim, fun opened => ?_⟩
  cases opened with
  | none => exact hk none
  | some descriptor =>
    have hclose :
        (ask (.close descriptor) fun _ => k none).Within (Tame options session storing) R :=
      ⟨tame_file trivial hauth trivial False.elim, fun _ => hk none⟩
    refine ⟨tame_file trivial hauth trivial False.elim, fun status => ?_⟩
    cases status with
    | none => exact hclose
    | some status => exact Prog.within_ite (fun _ => hclose) (fun _ => hk _)

theorem size_within :
    Behaves options session storing (size options session argument) := by
  refine Prog.within_ite (fun _ => answer_within (next_within ⟨rfl, rfl, rfl⟩)) (fun hvalid => ?_)
  refine openRegular_within hauth (by simpa using hvalid) fun opened => ?_
  cases opened with
  | none => exact answer_within (next_within ⟨rfl, rfl, rfl⟩)
  | some file =>
    refine ⟨tame_file trivial hauth trivial False.elim, fun _ => ?_⟩
    exact ⟨⟨trivial, False.elim, trivial, False.elim⟩, fun _ => next_within ⟨rfl, rfl, rfl⟩⟩

/-- Only files with valid names are listed. -/
theorem listedFiles_within {fileNames : List Bytes} {entries : List ListedFile}
    (h : ∀ entry ∈ entries, validFilename entry.name = true) :
    (listedFiles options fileNames entries).Within (Tame options session storing)
      fun entries => ∀ entry ∈ entries, validFilename entry.name = true := by
  induction fileNames generalizing entries with
  | nil => exact h
  | cons name rest ih =>
    refine Prog.within_ite (fun _ => ih h) (fun hvalid => ?_)
    have hname : validFilename name = true := by simpa using hvalid
    refine ⟨tame_file trivial hauth (ordinaryFile hname) False.elim, fun regular => ?_⟩
    refine Prog.within_ite (fun _ => ih h) (fun _ => ?_)
    refine ⟨tame_file trivial hauth (ordinaryFile hname) False.elim, fun size => ?_⟩
    cases size with
    | none => exact ih h
    | some size =>
      have hmore : ∀ entry ∈ entries ++ [⟨name, size⟩], validFilename entry.name = true := by
        rw [List.forall_mem_append, List.forall_mem_singleton]
        exact ⟨h, hname⟩
      exact Prog.within_ite (fun _ => hmore) (fun _ => ih hmore)

theorem list_within {namesOnly : Bool} :
    Behaves options session storing (list options session namesOnly) := by
  refine Prog.within_ite (fun _ => answer_within (next_within ⟨rfl, rfl, rfl⟩)) (fun _ => ?_)
  refine answer_within ⟨⟨trivial, False.elim, trivial, False.elim⟩, fun accepted => ?_⟩
  refine Prog.within_ite (fun _ => answer_within (next_within ⟨rfl, rfl, rfl⟩)) (fun _ => ?_)
  refine ⟨tame_file trivial hauth trivial False.elim, fun fileNames => ?_⟩
  refine Prog.within_bind (listedFiles_within hauth (by simp)) fun entries hentries => ?_
  have hlisting : Direct options (.sendListing (listing namesOnly entries)) :=
    ⟨namesOnly, entries, rfl, fun entry hmem => ordinaryFile (hentries entry hmem)⟩
  refine ⟨tame_file trivial hauth hlisting False.elim, fun sent => ?_⟩
  exact ⟨⟨trivial, False.elim, trivial, False.elim⟩, fun _ =>
    answer_within (next_within ⟨rfl, rfl, rfl⟩)⟩

theorem finishSending_within (hsame : SameLogin session session') {accepted sent : Bool} :
    Behaves options session storing (finishSending session' descriptor accepted sent) := by
  refine ⟨tame_file trivial hauth trivial False.elim, fun _ => ?_⟩
  refine Prog.within_ite (fun _ => ?_) (fun _ => answer_within (next_within hsame))
  exact ⟨⟨trivial, False.elim, trivial, False.elim⟩, fun _ => answer_within (next_within hsame)⟩

theorem retr_within :
    Behaves options session storing (retr options session argument) := by
  refine Prog.within_ite (fun _ => answer_within (next_within ⟨rfl, rfl, rfl⟩)) (fun hguard => ?_)
  have hvalid : validFilename argument = true := by
    simp only [Bool.or_eq_true, Bool.not_eq_true', not_or, Bool.not_eq_false] at hguard
    exact hguard.1
  refine openRegular_within hauth hvalid fun opened => ?_
  cases opened with
  | none => exact answer_within (next_within ⟨rfl, rfl, rfl⟩)
  | some file =>
    refine answer_within ⟨⟨trivial, False.elim, trivial, False.elim⟩, fun accepted => ?_⟩
    refine Prog.within_ite (fun _ => ?_) (fun _ => finishSending_within hauth sameLogin_used)
    exact continues_some ⟨rfl, rfl, rfl⟩ hauth False.elim

theorem sendRound_within :
    Behaves options session storing (sendRound session descriptor) := by
  have hsending : Continues options session storing (some (.sending session descriptor)) :=
    continues_some ⟨rfl, rfl, rfl⟩ hauth False.elim
  have hfinish : ∀ sent,
      Behaves options session storing (finishSending session descriptor true sent) := fun _ =>
    finishSending_within hauth ⟨rfl, rfl, rfl⟩
  refine ⟨tame_file trivial hauth trivial False.elim, fun received => ?_⟩
  cases received with
  | interrupted => exact hsending
  | failed => exact hfinish false
  | bytes bytes =>
    refine Prog.within_ite (fun _ => hfinish true) (fun _ => ?_)
    refine ⟨⟨trivial, False.elim, trivial, False.elim⟩, fun sent => ?_⟩
    exact Prog.within_ite (fun _ => hsending) (fun _ => hfinish false)

theorem usage_within {fileNames : List Bytes} {bytes : UInt64} {count : ℕ} :
    (usage options argument fileNames bytes count).Within (Tame options session storing)
      fun _ => True := by
  induction fileNames generalizing bytes count with
  | nil => exact trivial
  | cons name rest ih =>
    refine Prog.within_ite (fun _ => ih) (fun hguard => ?_)
    have hname : validFilename name = true := by
      simp only [Bool.or_eq_true, Bool.not_eq_true', not_or, Bool.not_eq_false] at hguard
      exact hguard.2
    refine ⟨tame_file trivial hauth (ordinaryFile hname) False.elim, fun regular => ?_⟩
    refine Prog.within_ite (fun _ => ih) (fun _ => ?_)
    refine ⟨tame_file trivial hauth (ordinaryFile hname) False.elim, fun size => ?_⟩
    cases size with
    | none => exact trivial
    | some size => exact Prog.within_ite (fun _ => trivial) (fun _ => ih)

theorem syncRoot_within : syncRoot.Within (Tame options session storing) fun _ => True := by
  refine ⟨tame_file trivial hauth trivial False.elim, fun directory => ?_⟩
  cases directory with
  | none => exact trivial
  | some directory =>
    refine ⟨tame_file trivial hauth trivial False.elim, fun _ => ?_⟩
    exact ⟨tame_file trivial hauth trivial False.elim, fun _ => trivial⟩

section Storing

variable (hstoring : storing)
include hstoring

theorem persist_within (htemporary : UploadFile options upload.temporary)
    (hvalid : validFilename upload.argument = true) {received : Bool} :
    (persist options upload received).Within (Tame options session storing) fun _ => True := by
  refine Prog.within_ite (fun _ => trivial) (fun _ => ?_)
  refine ⟨tame_file trivial hauth trivial False.elim, fun synced => ?_⟩
  refine Prog.within_ite (fun _ => trivial) (fun _ => ?_)
  refine ⟨tame_file trivial hauth trivial False.elim, fun closed => ?_⟩
  refine Prog.within_ite (fun _ => trivial) (fun _ => ?_)
  have hrename : Direct options (.rename upload.temporary (entryPath options upload.argument)) :=
    ⟨htemporary, ordinaryFile hvalid⟩
  exact ⟨tame_file trivial hauth hrename fun _ => hstoring, fun _ => trivial⟩

theorem finishUpload_within (hsame : SameLogin session session')
    (htemporary : UploadFile options upload.temporary)
    (hvalid : validFilename upload.argument = true) {received : Bool} :
    Behaves options session storing (finishUpload options session' upload received) := by
  refine Prog.within_bind (persist_within hauth hstoring htemporary hvalid) fun persisted _ => ?_
  refine Prog.within_ite (fun _ => ?_) (fun _ => ?_)
  · exact Prog.within_bind (syncRoot_within hauth) fun _ _ => unlocked_within hstoring hsame
  · refine ⟨tame_file trivial hauth trivial False.elim, fun _ => ?_⟩
    exact ⟨tame_file trivial hauth htemporary fun _ => hstoring, fun _ =>
      unlocked_within hstoring hsame⟩

theorem beginUpload_within {limit : UInt64} (hvalid : validFilename argument = true) :
    Behaves options session storing (beginUpload options pid session argument limit) := by
  refine ⟨⟨trivial, False.elim, trivial, False.elim⟩, fun sequence => ?_⟩
  refine ⟨tame_file trivial hauth (uploadFile pid sequence) fun _ => hstoring, fun created => ?_⟩
  cases created with
  | none => exact unlocked_within hstoring ⟨rfl, rfl, rfl⟩
  | some descriptor =>
    refine answer_within ⟨⟨trivial, False.elim, trivial, False.elim⟩, fun accepted => ?_⟩
    refine Prog.within_ite (fun _ => ?_) (fun _ => ?_)
    · exact continues_some ⟨rfl, rfl, rfl⟩ ⟨hauth, uploadFile pid sequence, hvalid⟩ fun _ =>
        hstoring
    · exact finishUpload_within hauth hstoring sameLogin_used (uploadFile pid sequence) hvalid

theorem stor_within :
    Behaves options session storing (stor options pid session argument) := by
  refine Prog.within_ite (fun _ => answer_within (next_within ⟨rfl, rfl, rfl⟩)) (fun hguard => ?_)
  have hvalid : validFilename argument = true := by
    simp only [Bool.or_eq_true, Bool.not_eq_true', not_or, Bool.not_eq_false] at hguard
    exact hguard.1
  refine ⟨⟨trivial, False.elim, trivial, fun _ => hstoring⟩, fun _ => ?_⟩
  refine ⟨tame_file trivial hauth trivial False.elim, fun fileNames => ?_⟩
  refine Prog.within_bind (usage_within hauth) fun used _ => ?_
  split
  · exact unlocked_within hstoring ⟨rfl, rfl, rfl⟩
  · refine Prog.within_ite (fun _ => unlocked_within hstoring ⟨rfl, rfl, rfl⟩) (fun _ => ?_)
    exact beginUpload_within hauth hstoring hvalid

section Transfer

variable (htemporary : UploadFile options upload.temporary)
  (hvalid : validFilename upload.argument = true)
include htemporary hvalid

theorem closeUpload_within {received : Bool} :
    Behaves options session storing (closeUpload options session upload received) :=
  ⟨⟨trivial, False.elim, trivial, False.elim⟩, fun _ =>
    finishUpload_within hauth hstoring ⟨rfl, rfl, rfl⟩ htemporary hvalid⟩

theorem receiveRound_within :
    Behaves options session storing (receiveRound options session upload) := by
  have hclose : ∀ received,
      Behaves options session storing (closeUpload options session upload received) := fun _ =>
    closeUpload_within hauth hstoring htemporary hvalid
  refine ⟨⟨trivial, False.elim, trivial, False.elim⟩, fun stopped => ?_⟩
  refine Prog.within_ite (fun _ => hclose true) (fun _ => ?_)
  refine ⟨⟨trivial, False.elim, trivial, False.elim⟩, fun readable => ?_⟩
  refine Prog.within_ite (fun _ => hclose false) (fun _ => ?_)
  refine ⟨⟨trivial, False.elim, trivial, False.elim⟩, fun received => ?_⟩
  cases received with
  | interrupted =>
    exact continues_some ⟨rfl, rfl, rfl⟩ ⟨hauth, htemporary, hvalid⟩ fun _ => hstoring
  | failed => exact hclose false
  | bytes bytes =>
    refine Prog.within_ite (fun _ => hclose true) (fun _ => ?_)
    refine Prog.within_ite (fun _ => ?_) (fun _ => ?_)
    · exact closeUpload_within hauth hstoring htemporary hvalid
    · exact continues_some ⟨rfl, rfl, rfl⟩ ⟨hauth, htemporary, hvalid⟩ fun _ => hstoring

theorem writeRound_within {rest : Bytes} :
    Behaves options session storing (writeRound options session upload rest) := by
  have hclose : Behaves options session storing (closeUpload options session upload false) :=
    closeUpload_within hauth hstoring htemporary hvalid
  have hgoing : ∀ rest', Continues options session storing (some (.writing session upload rest')) :=
    fun _ => continues_some ⟨rfl, rfl, rfl⟩ ⟨hauth, htemporary, hvalid⟩ fun _ => hstoring
  refine Prog.within_ite (fun _ => ?_) (fun _ => ?_)
  · exact continues_some ⟨rfl, rfl, rfl⟩ ⟨hauth, htemporary, hvalid⟩ fun _ => hstoring
  refine ⟨tame_file trivial hauth trivial (fun _ => hstoring), fun written => ?_⟩
  cases written with
  | interrupted => exact hgoing rest
  | failed => exact hclose
  | bytes count => exact Prog.within_ite (fun _ => hclose) (fun _ => hgoing _)

end Transfer

end Storing

theorem authenticatedCommand_within {command : Bytes} (hstor : command = ascii "STOR" → storing) :
    Behaves options session storing
      (authenticatedCommand options pid session command argument) := by
  have hnext : ∀ text, Behaves options session storing (answer text (next session)) := fun _ =>
    answer_within (next_within ⟨rfl, rfl, rfl⟩)
  refine Prog.within_ite (fun _ => hnext _) fun _ => ?_
  refine Prog.within_ite (fun _ => hnext _) fun _ => ?_
  refine Prog.within_ite (fun _ => ?_) fun _ => ?_
  · exact Prog.within_ite (fun _ => hnext _) fun _ => hnext _
  refine Prog.within_ite (fun _ => openPassive_within) fun _ => ?_
  refine Prog.within_ite (fun _ => size_within hauth) fun _ => ?_
  refine Prog.within_ite (fun _ => list_within hauth) fun _ => ?_
  refine Prog.within_ite (fun _ => retr_within hauth) fun _ => ?_
  exact Prog.within_ite (fun h => stor_within hauth (hstor h)) fun _ => hnext _

end LoggedInOnly

/-- A command other than USER and PASS keeps the session, and touches the files only if the user
is logged in. -/
theorem dispatch_within {command : Bytes} (huser : command ≠ ascii "USER")
    (hpass : command ≠ ascii "PASS") (hstor : command = ascii "STOR" → storing) :
    Behaves options session storing (dispatch options pid session command argument) := by
  have hnext : ∀ text, Behaves options session storing (answer text (next session)) := fun _ =>
    answer_within (next_within ⟨rfl, rfl, rfl⟩)
  refine Prog.within_ite (fun _ => answer_within leave_within) fun _ => ?_
  refine Prog.within_ite (fun _ => hnext _) fun _ => ?_
  refine Prog.within_ite (fun _ => hnext _) fun _ => ?_
  refine Prog.within_ite (fun _ => hnext _) fun _ => ?_
  refine Prog.within_ite (fun _ => hnext _) fun _ => ?_
  rw [if_neg huser, if_neg hpass]
  refine Prog.within_ite (fun _ => hnext _) fun hauth => ?_
  exact authenticatedCommand_within (by simpa using hauth) hstor

end Commands

/-! ### The session and the trace -/

/-- An act that changes nothing of the login. -/
def Quiet (act : Act ftpCalls) : Prop :=
  verifies act = false ∧ ¬ Says "USER" act ∧ ¬ Says "PASS" act

/-- What the session says of the trace. -/
structure Tracks (trace : Trace ftpCalls) (session : Session) : Prop where
  failed : failures trace = session.failedPasswords
  named : session.username = ascii "admin" → NamesAdmin trace
  loggedIn : session.authenticated = true → LoggedIn trace

def Standing (options : ServerOptions) (result : Option Phase) (trace : Trace ftpCalls) : Prop :=
  ∀ phase, result = some phase →
    Tracks trace phase.session ∧ phase.session.failedPasswords < 3 ∧ Proper options phase

section History

variable {options : ServerOptions} {pid : ℕ} {session : Session} {line : Bytes}
  {trace before : Trace ftpCalls} {act : Act ftpCalls} {result : Option Phase}

theorem failures_snoc : failures (trace ++ [act]) = countFailure (failures trace) act := by
  rw [failures, List.foldl_append]
  rfl

theorem countFailure_quiet (h : Quiet act) (count : ℕ) : countFailure count act = count := by
  have hpass : (lineOf act).map commandOf ≠ some (ascii "PASS") := by
    intro hpass
    obtain ⟨line, hline, hcommand⟩ := Option.map_eq_some_iff.mp hpass
    exact h.2.2 ⟨line, hline, hcommand⟩
  rw [countFailure, h.1, if_neg Bool.false_ne_true, if_neg hpass]

theorem failures_line : failures (trace ++ [⟨.readLine, some line⟩]) =
    if commandOf line = ascii "PASS" then failures trace + 1 else failures trace := by
  have hrefused : verifies ⟨.readLine, some line⟩ = false := rfl
  have hsays : (lineOf ⟨.readLine, some line⟩).map commandOf = some (commandOf line) := rfl
  rw [failures_snoc, countFailure, hrefused, hsays, if_neg Bool.false_ne_true]
  simp only [Option.some.injEq]

theorem NamesAdmin.snoc (h : NamesAdmin trace) (hact : ¬ Says "USER" act) :
    NamesAdmin (trace ++ [act]) := by
  obtain ⟨earlier, line, later, rfl, hcommand, hargument, hlater⟩ := h
  refine ⟨earlier, line, later ++ [act], List.append_assoc .., hcommand, hargument, ?_⟩
  rw [List.forall_mem_append, List.forall_mem_singleton]
  exact ⟨hlater, hact⟩

theorem LoggedIn.snoc (h : LoggedIn trace) (hact : Quiet act) : LoggedIn (trace ++ [act]) := by
  obtain ⟨earlier, line, later, hnamed, hcommand, rfl, hlater⟩ := h
  refine ⟨earlier, line, later ++ [act], hnamed, hcommand, List.append_assoc .., ?_⟩
  rw [List.forall_mem_append, List.forall_mem_singleton]
  exact ⟨hlater, hact.2⟩

theorem Tracks.snoc (h : Tracks trace session) (hact : Quiet act) :
    Tracks (trace ++ [act]) session where
  failed := by rw [failures_snoc, countFailure_quiet hact, h.failed]
  named hname := (h.named hname).snoc hact.2.1
  loggedIn hauth := (h.loggedIn hauth).snoc hact

theorem quiet_of_calm {call : FtpCall} (h : Calm call) (a : ftpCalls.Answer call) :
    Quiet ⟨call, a⟩ := by
  cases call with
  | readLine => exact h.elim
  | verifyPassword username password => exact h.elim
  | _ => exact ⟨rfl, by simp [Says, lineOf], by simp [Says, lineOf]⟩

/-- A line with another command. -/
theorem quiet_line {line : Option Bytes}
    (h : ∀ text, line = some text → commandOf text ≠ ascii "USER" ∧ commandOf text ≠ ascii "PASS") :
    Quiet ⟨.readLine, line⟩ := by
  refine ⟨rfl, ?_, ?_⟩
  · rintro ⟨text, hline, hcommand⟩
    exact (h text hline).1 hcommand
  · rintro ⟨text, hline, hcommand⟩
    exact (h text hline).2 hcommand

theorem Tracks.permitted (h : Tracks before session) {call : FtpCall}
    (htame : Tame options session True call) : Permitted options before call := by
  refine ⟨fun hfiles => h.loggedIn (htame.2.1 hfiles), ?_, htame.2.2.1⟩
  rintro rfl
  exact htame.1.elim

/-- A program that needs no more than what the session says, behind acts of which it is true. -/
theorem tame_heeds {R : Option Phase → Prop} {p : Prog ftpCalls (Option Phase)}
    (h : Tracks before session) (hp : p.Within (Tame options session True) R)
    (hR : ∀ result done, R result → Tracks done session → Standing options result done) :
    p.Heeds (Permitted options) (Standing options) before := by
  refine hp.heeds ?_ ?_ hR h
  · intro done call a htame htracks
    exact htracks.snoc (quiet_of_calm htame.1 a)
  · intro done call htame htracks
    exact htracks.permitted htame

theorem continues_heeds {p : Prog ftpCalls (Option Phase)} (h : Tracks before session)
    (hfew : session.failedPasswords < 3)
    (hp : Behaves options session True p) :
    p.Heeds (Permitted options) (Standing options) before := by
  refine tame_heeds h hp ?_
  intro result done hcontinues htracks phase hresult
  obtain ⟨hsame, hproper, -⟩ := hcontinues phase hresult
  refine ⟨⟨?_, ?_, ?_⟩, ?_, hproper⟩
  · rw [hsame.failedPasswords]
    exact htracks.failed
  · rw [hsame.username]
    exact htracks.named
  · rw [hsame.authenticated]
    exact htracks.loggedIn
  · rw [hsame.failedPasswords]
    exact hfew

theorem user_heeds (h : Tracks trace session) (hfew : session.failedPasswords < 3)
    (hcommand : commandOf line = ascii "USER") :
    (user session (argumentOf line)).Heeds (Permitted options) (Standing options)
      (trace ++ [⟨.readLine, some line⟩]) := by
  have htracks : Tracks (trace ++ [⟨.readLine, some line⟩])
      { session with username := argumentOf line, authenticated := false } := by
    refine ⟨?_, fun hname => ?_, fun hauth => Bool.noConfusion hauth⟩
    · have hother : commandOf line ≠ ascii "PASS" := by
        rw [hcommand]
        decide
      rw [failures_line, if_neg hother]
      exact h.failed
    · exact ⟨trace, line, [], rfl, hcommand, hname, by simp⟩
  refine continues_heeds htracks hfew (Prog.within_ite (fun _ => ?_) (fun _ => ?_))
  · exact answer_within (next_within ⟨rfl, rfl, rfl⟩)
  · exact answer_within (next_within ⟨rfl, rfl, rfl⟩)

/-- A password that has been refused, behind acts that count it. -/
theorem refusePassword_heeds (hfailed : failures before = session.failedPasswords + 1)
    (hnamed : session.username = ascii "admin" → NamesAdmin before) :
    (refusePassword session).Heeds (Permitted options) (Standing options) before := by
  have htracks : Tracks before { session with
      authenticated := false
      failedPasswords := session.failedPasswords + 1 } :=
    ⟨hfailed, hnamed, fun hauth => Bool.noConfusion hauth⟩
  by_cases hmany : 3 ≤ session.failedPasswords + 1
  · rw [refusePassword, if_pos hmany]
    refine tame_heeds htracks (R := (· = none)) (answer_within (closePassive_within rfl)) ?_
    rintro _ done rfl - phase ⟨⟩
  · rw [refusePassword, if_neg hmany]
    exact continues_heeds htracks (not_le.mp hmany) (answer_within (next_within ⟨rfl, rfl, rfl⟩))

theorem pass_heeds (h : Tracks trace session) (hcommand : commandOf line = ascii "PASS") :
    (pass session (argumentOf line)).Heeds (Permitted options) (Standing options)
      (trace ++ [⟨.readLine, some line⟩]) := by
  have hother : ¬ Says "USER" ⟨.readLine, some line⟩ := by
    rintro ⟨text, hline, huser⟩
    cases hline
    exact absurd (hcommand.symm.trans huser) (by decide)
  have hfailed : failures (trace ++ [⟨.readLine, some line⟩]) = session.failedPasswords + 1 := by
    rw [failures_line, if_pos hcommand, h.failed]
  have hnamed : session.username = ascii "admin" →
      NamesAdmin (trace ++ [⟨.readLine, some line⟩]) := fun hname => (h.named hname).snoc hother
  rw [pass]
  split_ifs with hname
  · refine ⟨⟨False.elim, by rintro ⟨⟩, trivial⟩, fun verified => ?_⟩
    have hkept : NamesAdmin (trace ++ [⟨.readLine, some line⟩] ++
        [⟨.verifyPassword session.username (argumentOf line), verified⟩]) :=
      (hnamed hname).snoc (by simp [Says, lineOf])
    cases verified with
    | true =>
      have htracks : Tracks (trace ++ [⟨.readLine, some line⟩] ++
          [⟨.verifyPassword session.username (argumentOf line), true⟩])
          { session with authenticated := true, failedPasswords := 0 } := by
        refine ⟨?_, fun _ => hkept, fun _ => ?_⟩
        · rw [failures_snoc]
          rfl
        · rw [hname]
          exact ⟨trace, line, [], h.named hname, hcommand, List.append_assoc .., by simp⟩
      refine continues_heeds htracks (Nat.zero_lt_succ 2) (answer_within ?_)
      exact next_within ⟨rfl, rfl, rfl⟩
    | false =>
      refine refusePassword_heeds ?_ (fun _ => hkept)
      rw [failures_snoc, hfailed]
      rfl
  · exact refusePassword_heeds hfailed hnamed

/-- What one round does, from where the rounds before it have led. -/
theorem serve_heeds {phase : Phase} (h : Standing options (some phase) trace) :
    (serve options pid phase).Heeds (Permitted options) (Standing options) trace := by
  obtain ⟨htracks, hfew, hproper⟩ := h phase rfl
  cases phase with
  | connected =>
    refine continues_heeds htracks hfew ⟨⟨trivial, False.elim, trivial, False.elim⟩, fun sent => ?_⟩
    refine Prog.within_ite (fun _ => continues_none) (fun _ => ?_)
    refine ⟨⟨trivial, False.elim, trivial, False.elim⟩, fun known => ?_⟩
    exact Prog.within_ite (fun _ => continues_none) (fun _ => next_within ⟨rfl, rfl, rfl⟩)
  | command session =>
    refine ⟨⟨False.elim, fun _ => htracks.failed ▸ hfew, trivial⟩, fun line => ?_⟩
    cases line with
    | none => exact continues_heeds (htracks.snoc (quiet_line (by simp))) hfew leave_within
    | some line =>
      show (dispatch options pid session (commandOf line) (argumentOf line)).Heeds _ _ _
      by_cases huser : commandOf line = ascii "USER"
      · have hdispatch : dispatch options pid session (commandOf line) (argumentOf line) =
            user session (argumentOf line) := by
          rw [huser]
          rfl
        rw [hdispatch]
        exact user_heeds htracks hfew huser
      by_cases hpass : commandOf line = ascii "PASS"
      · have hdispatch : dispatch options pid session (commandOf line) (argumentOf line) =
            pass session (argumentOf line) := by
          rw [hpass]
          rfl
        rw [hdispatch]
        exact pass_heeds htracks hpass
      · have hquiet : Quiet ⟨.readLine, some line⟩ := by
          refine quiet_line ?_
          rintro text ⟨⟩
          exact ⟨huser, hpass⟩
        exact continues_heeds (htracks.snoc hquiet) hfew
          (dispatch_within huser hpass fun _ => trivial)
  | sending session descriptor => exact continues_heeds htracks hfew (sendRound_within hproper)
  | receiving session upload =>
    obtain ⟨hauth, htemporary, hvalid⟩ := hproper
    exact continues_heeds htracks hfew (receiveRound_within hauth trivial htemporary hvalid)
  | writing session upload rest =>
    obtain ⟨hauth, htemporary, hvalid⟩ := hproper
    exact continues_heeds htracks hfew (writeRound_within hauth trivial htemporary hvalid)

theorem standing_connected : Standing options (some .connected) [] := by
  rintro _ ⟨⟩
  refine ⟨⟨rfl, fun hname => ?_, fun hauth => Bool.noConfusion hauth⟩, by decide, trivial⟩
  exact absurd hname (by decide)

end History

/-! ### Every run -/

/-- What holds of all that a connection has done, and of where it stands. -/
structure AccessControlled (options : ServerOptions) (trace : Trace ftpCalls)
    (result : Option Phase) : Prop where
  files : ∀ before act after, trace = before ++ act :: after → TouchesFiles act.op →
    LoggedIn before
  lines : ∀ before line after, trace = before ++ ⟨.readLine, line⟩ :: after → failures before < 3
  dropped : 3 ≤ failures trace → result = none
  names : ∀ act ∈ trace, Direct options act.op

/-- On every connection, whatever lines come in and whatever the surroundings answer: the files are
touched only while the last USER and the PASS behind it have logged the administrator in; behind
the third refused PASS the connection has ended; and every file is an entry of the root. -/
theorem access_controlled {options : ServerOptions} {pid : ℕ} {trace : Trace ftpCalls}
    {result : Option Phase}
    (h : Prog.Loops (serve options pid) (fun _ _ => True) .connected trace result) :
    AccessControlled options trace result := by
  have hstart : Standing options (some .connected) [] := standing_connected
  obtain ⟨hstanding, hpermitted⟩ := h.heeds hstart fun phase done hphase => serve_heeds hphase
  refine ⟨?_, ?_, ?_, ?_⟩
  · intro before act after heq hfiles
    exact (hpermitted before act after heq).1 hfiles
  · intro before line after heq
    exact (hpermitted before _ after heq).2.1 rfl
  · intro hmany
    cases result with
    | none => rfl
    | some phase =>
      obtain ⟨htracks, hfew, -⟩ := hstanding phase rfl
      rw [htracks.failed] at hmany
      omega
  · intro act hmem
    obtain ⟨before, after, heq⟩ := List.append_of_mem hmem
    exact (hpermitted before act after heq).2.2

/-! ### A connection -/

def sampleOptions : ServerOptions where
  root := ascii "/srv/ftp"
  maxFiles := 1
  maxFileBytes := 8
  maxTotalBytes := 16
  root_ne := by decide
  maxFiles_pos := by decide
  maxFileBytes_pos := by decide
  maxFileBytes_le := by decide

/-- A peer with some lines to send, and a file of seven bytes under every name. -/
def obliging : Env ftpCalls (List Bytes) where
  answer lines
    | .readLine => (lines.head?, lines.tail)
    | .openListener => (some 2000, lines)
    | .localAddress => (some 0, lines)
    | .listRoot => (([], false), lines)
    | .isRegularFile _ => (some true, lines)
    | .fileSize _ => (some 7, lines)
    | .openFile _ | .createUpload _ | .openRoot => (some 5, lines)
    | .fstat _ => (some ⟨true, 7⟩, lines)
    | .recvData | .readFile _ => (.bytes [], lines)
    | .writeFile _ bytes => (.bytes bytes.length, lines)
    | .nextUpload => (0, lines)
    | .reply _ | .peerAddress | .verifyPassword _ _ | .acceptData | .sendListing _ | .sendData _ |
      .waitData | .close _ | .stopRequested | .fsync _ | .rename _ _ | .unlink _ => (true, lines)
    | .closePassive | .closeData | .lock | .unlock => ((), lines)

/-- The administrator logs in and asks for the size of a file. -/
def sampleConnection : Trace ftpCalls × Option Phase × List Bytes :=
  Prog.loopIn obliging (serve sampleOptions 1) .connected
    [ascii "USER admin", ascii "PASS secret", ascii "SIZE a.icd"] 4

theorem sampleConnection_controlled :
    AccessControlled sampleOptions sampleConnection.1 sampleConnection.2.1 ∧
      (sampleConnection.1.map Act.op).getLast? = some (.reply (ascii "213 7\r\n")) :=
  ⟨access_controlled (Prog.loops_loopIn obliging (serve sampleOptions 1) .connected _ 4),
    by decide +kernel⟩

end Uhf.Ftp
