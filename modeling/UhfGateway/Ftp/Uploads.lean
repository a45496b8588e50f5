/-
Uploads of the FTP server: all of a file or nothing of it.

`Delivery` is what a run of STOR has brought about so far: the contents of the files, what the data
connection has delivered and what of it has been written, and how the operations went that decide
between a file and none.  The lock is held from before the temporary is created, so that no other
connection stores anything meanwhile.

* `Coming` — what holds while a file comes in;
* `finishUpload_ends`, `receiveRound_ends`, `writeRound_ends` — what the rounds make of it;
* `uploads_all_or_nothing` — which runs keep to all or nothing.
-/
import UhfGateway.Effects.Layer
import UhfGateway.Ftp.Quota

namespace Uhf.Ftp

open Effects

/-! ### What a run brings about -/

structure Delivery where
  /-- The contents of the files, by path. -/
  files : Bytes → Option Bytes
  /-- The path that a descriptor was last opened for to write. -/
  opened : ℕ → Option Bytes := fun _ => none
  created : List Bytes := []
  received : Bytes := []
  written : Bytes := []
  /-- `recv` has come to the end of the stream. -/
  ended : Bool := false
  /-- The condition of the loop has found `stop_requested_` set. -/
  stopped : Bool := false
  /-- `fsync`, `close` or `rename` has failed, and no `rename` has succeeded before. -/
  refused : Bool := false
  replaced : Bool := false
  /-- `unlink` has failed. -/
  left : Bool := false

/-- What an operation adds. -/
def Delivery.act (s : Delivery) : Act ftpCalls → Delivery
  | ⟨.createUpload path, some descriptor⟩ =>
    { s with
      files := Function.update s.files path (some [])
      opened := Function.update s.opened descriptor (some path)
      created := s.created ++ [path] }
  | ⟨.recvData, .bytes bytes⟩ =>
    if bytes = [] then { s with ended := true } else { s with received := s.received ++ bytes }
  | ⟨.writeFile descriptor bytes, .bytes count⟩ =>
    match s.opened descriptor with
    | none => s
    | some path =>
      { s with
        files := Function.update s.files path ((s.files path).map (· ++ bytes.take count))
        written := s.written ++ bytes.take count }
  | ⟨.stopRequested, true⟩ => { s with stopped := true }
  | ⟨.fsync _, false⟩ | ⟨.close _, false⟩ | ⟨.rename _ _, false⟩ =>
    { s with refused := s.refused || !s.replaced }
  | ⟨.rename source target, true⟩ =>
    { s with
      files := Function.update (Function.update s.files target (s.files source)) source none
      replaced := true }
  | ⟨.unlink path, true⟩ => { s with files := Function.update s.files path none }
  | ⟨.unlink _, false⟩ => { s with left := true }
  | _ => s

/-- Whatever the system and the peer answer. -/
def deliveryWorld : World ftpCalls Delivery where
  answers call s a s' := s' = s.act ⟨call, a⟩
  cut _ _ _ := False
  dies _ := False

/-- A run of STOR: the command, and then the rounds of its two loops. -/
inductive StorRun (options : ServerOptions) (pid : ℕ) (session : Session) (argument : Bytes)
    (start : Delivery) : Option Phase → Delivery → Prop
  | command {r : Option Phase} {s : Delivery}
      (exec : (stor options pid session argument).Runs deliveryWorld start (some r) s) :
      StorRun options pid session argument start r s
  | round {phase : Phase} {r : Option Phase} {s s' : Delivery}
      (h : StorRun options pid session argument start (some phase) s) (storing : phase.Storing)
      (exec : (serve options pid phase).Runs deliveryWorld s (some r) s') :
      StorRun options pid session argument start r s'

/-- The target has been replaced by all that was received, up to the end of the stream, or is as it
was before; what has been created is no longer there. -/
structure AllOrNothing (target : Bytes) (before : Bytes → Option Bytes) (s : Delivery) : Prop where
  replaced : s.replaced = true →
    s.ended = true ∧ s.written = s.received ∧ s.files target = some s.received
  untouched : s.replaced = false → s.files target = before target
  clean : ∀ path ∈ s.created, s.files path = none

/-- The condition of the loop has not found the stop flag set, unless the file is then refused, and
no temporary has withstood `unlink`. -/
structure Undisturbed (s : Delivery) : Prop where
  heard : s.stopped = true → s.refused = true
  removed : s.left = false

/-! ### While a file comes in -/

/-- An upload with what has been written of it. -/
structure Held (options : ServerOptions) (argument : Bytes) (files : Bytes → Option Bytes)
    (upload : Upload) (s : Delivery) : Prop where
  argument_eq : upload.argument = argument
  apart : entryPath options argument ≠ upload.temporary
  opened : s.opened upload.descriptor = some upload.temporary
  content : s.files upload.temporary = some s.written
  elsewhere : ∀ path, path ≠ upload.temporary → s.files path = files path
  created : s.created = [upload.temporary]
  replaced : s.replaced = false
  left : s.left = false

/-- An upload of which `rest` has been received and is not written yet. -/
structure Coming (options : ServerOptions) (argument : Bytes) (files : Bytes → Option Bytes)
    (upload : Upload) (rest : Bytes) (s : Delivery) : Prop
    extends Held options argument files upload s where
  received : s.received = s.written ++ rest
  ended : s.ended = false
  stopped : s.stopped = false
  refused : s.refused = false

/-- Where a run of STOR may stand between two rounds. -/
def Storing (options : ServerOptions) (argument : Bytes) (files : Bytes → Option Bytes) :
    Option Phase → Delivery → Prop
  | some (.receiving _ upload), s => Coming options argument files upload [] s
  | some (.writing _ upload rest), s => Coming options argument files upload rest s
  | some (.command _), s =>
    AllOrNothing (entryPath options argument) files s ↔ Undisturbed s
  | _, _ => False

/-- What holds of the result of a program and of what it has brought about. -/
abbrev Ends {α : Type} (R : α → Delivery → Prop) (p : Prog ftpCalls α) (s : Delivery) : Prop :=
  p.Ensures deliveryWorld (fun _ => True) R s

section Rounds

variable {options : ServerOptions} {pid : ℕ} {session : Session} {argument : Bytes}
  {files : Bytes → Option Bytes} {upload : Upload} {rest : Bytes} {s : Delivery} {α : Type}
  {R : α → Delivery → Prop}

theorem ends_done {a : α} (h : R a s) : Ends R (.done a) s := ⟨fun _ => trivial, h⟩

theorem ends_ask {call : FtpCall} {k : ftpCalls.Answer call → Prog ftpCalls α}
    (h : ∀ a, Ends R (k a) (s.act ⟨call, a⟩)) : Ends R (ask call k) s := by
  refine ⟨fun _ => trivial, fun _ hcut => hcut.elim, ?_⟩
  rintro a s' rfl
  exact h a

theorem unlocked_ends {R : Option Phase → Delivery → Prop} {text : String}
    (h : R (some (.command session)) s) : Ends R (unlocked session text) s :=
  ends_ask fun _ => ends_ask fun _ => ends_done h

theorem syncRoot_ends {R : Unit → Delivery → Prop} (h : R () s) (hreplaced : s.replaced = true) :
    Ends R syncRoot s := by
  -- once the file is there nothing is refused any more
  have hsame : { s with refused := s.refused || !s.replaced } = s := by
    cases s
    cases hreplaced
    rw [Bool.not_true, Bool.or_false]
  refine ends_ask fun directory => ?_
  cases directory with
  | none => exact ends_done h
  | some directory =>
    refine ends_ask fun synced => ?_
    have hsynced : s.act ⟨.fsync directory, synced⟩ = s := by
      cases synced with
      | true => rfl
      | false => exact hsame
    show Ends R _ (s.act ⟨.fsync directory, synced⟩)
    rw [hsynced]
    refine ends_ask fun closed => ?_
    have hclosed : s.act ⟨.close directory, closed⟩ = s := by
      cases closed with
      | true => rfl
      | false => exact hsame
    rw [hclosed]
    exact ends_done h

/-- The scan brings nothing about. -/
theorem usage_ends (names : List Bytes) (bytes : UInt64) (count : ℕ) :
    Ends (fun _ s' => s' = s) (usage options argument names bytes count) s := by
  induction names generalizing bytes count with
  | nil => exact ends_done rfl
  | cons name names ih =>
    rw [usage]
    refine Prog.ensures_ite (fun _ => ih bytes count) (fun _ => ?_)
    refine ends_ask fun regular => ?_
    refine Prog.ensures_ite (fun _ => ih bytes count) (fun _ => ?_)
    refine ends_ask fun size => ?_
    cases size with
    | none => exact ends_done rfl
    | some size => exact Prog.ensures_ite (fun _ => ends_done rfl) (fun _ => ih _ _)

/-- An operation that fails leaves the upload refused. -/
theorem Held.refuse (h : Held options argument files upload s) :
    Held options argument files upload { s with refused := s.refused || !s.replaced } ∧
      (s.stopped = true → (s.refused || !s.replaced) = true) := by
  refine ⟨{ h with }, fun _ => ?_⟩
  rw [h.replaced, Bool.not_false, Bool.or_true]

/-- An upload that is given up. -/
theorem discard_ends {text : String} (h : Held options argument files upload s)
    (hheard : s.stopped = true → s.refused = true) :
    Ends (Storing options argument files)
      (ask (.close upload.descriptor) fun _ =>
        ask (.unlink upload.temporary) fun _ => unlocked session text) s := by
  refine ends_ask fun closed => ?_
  -- whether or not it can be closed
  obtain ⟨hheld, hheard'⟩ : Held options argument files upload
        (s.act ⟨.close upload.descriptor, closed⟩) ∧
      ((s.act ⟨.close upload.descriptor, closed⟩).stopped = true →
        (s.act ⟨.close upload.descriptor, closed⟩).refused = true) := by
    cases closed with
    | true => exact ⟨h, hheard⟩
    | false => exact h.refuse
  refine ends_ask fun removed => unlocked_ends ?_
  cases removed with
  | true =>
    -- the target is untouched and the temporary is gone
    refine iff_of_true ⟨?_, ?_, ?_⟩ ⟨hheard', hheld.left⟩
    · intro hreplaced
      exact absurd (hheld.replaced.symm.trans hreplaced) Bool.false_ne_true
    · intro _
      exact (Function.update_of_ne hheld.apart _ _).trans (hheld.elsewhere _ hheld.apart)
    · intro path hmem
      have hpath : path ∈ [upload.temporary] := hheld.created ▸ hmem
      rw [List.mem_singleton.mp hpath]
      exact Function.update_self ..
  | false =>
    refine iff_of_false (fun hall => ?_) (fun hundisturbed => ?_)
    · have hmem : upload.temporary ∈ [upload.temporary] := List.mem_singleton_self _
      have hnone := hall.clean upload.temporary (hheld.created.symm ▸ hmem)
      exact absurd (hheld.content.symm.trans hnone) (Option.some_ne_none _)
    · exact Bool.noConfusion hundisturbed.removed

/-- What has been written takes the place of the target: as it should if the stream has ended, and
wrongly if the loop was left for the stop flag. -/
theorem Held.renamed (h : Held options argument files upload s) (hrefused : s.refused = false)
    (hwritten : s.received = s.written) (hreason : s.stopped = !s.ended) :
    AllOrNothing (entryPath options argument) files
        (s.act ⟨.rename upload.temporary (entryPath options argument), true⟩) ↔
      Undisturbed (s.act ⟨.rename upload.temporary (entryPath options argument), true⟩) := by
  constructor
  · intro hall
    have hended : s.ended = true := (hall.replaced rfl).1
    refine ⟨fun hstopped => ?_, h.left⟩
    have hfalse : s.stopped = false := by rw [hreason, hended, Bool.not_true]
    exact absurd (hfalse.symm.trans hstopped) Bool.false_ne_true
  · intro hundisturbed
    have hended : s.ended = true := by
      by_contra hnot
      have hstopped : s.stopped = true := by
        rw [hreason, Bool.eq_false_iff.mpr hnot, Bool.not_false]
      exact absurd (hrefused.symm.trans (hundisturbed.heard hstopped)) Bool.false_ne_true
    refine ⟨fun _ => ⟨hended, hwritten.symm, ?_⟩, fun hnot => Bool.noConfusion hnot, ?_⟩
    · show Function.update (Function.update s.files _ _) _ _ _ = some s.received
      rw [Function.update_of_ne h.apart, Function.update_self, h.content, hwritten]
    · intro path hmem
      have hpath : path ∈ [upload.temporary] := h.created ▸ hmem
      rw [List.mem_singleton.mp hpath]
      exact Function.update_self ..

/-- Whatever was received has been written: it becomes the target, unless it is refused. -/
theorem persist_ends (h : Held options argument files upload s) (hrefused : s.refused = false)
    (hwritten : s.received = s.written) (hreason : s.stopped = !s.ended) :
    Ends (fun persisted s' =>
        (persisted = true → s'.replaced = true ∧
          (AllOrNothing (entryPath options argument) files s' ↔ Undisturbed s')) ∧
        (persisted = false → Held options argument files upload s' ∧
          (s'.stopped = true → s'.refused = true)))
      (persist options upload true) s := by
  refine ends_ask fun synced => ?_
  cases synced with
  | false => exact ends_done ⟨fun hfalse => Bool.noConfusion hfalse, fun _ => h.refuse⟩
  | true =>
    refine ends_ask fun closed => ?_
    cases closed with
    | false => exact ends_done ⟨fun hfalse => Bool.noConfusion hfalse, fun _ => h.refuse⟩
    | true =>
      refine ends_ask fun renamed => ?_
      cases renamed with
      | false => exact ends_done ⟨fun hfalse => Bool.noConfusion hfalse, fun _ => h.refuse⟩
      | true =>
        rw [h.argument_eq]
        refine ends_done ⟨fun _ => ⟨rfl, ?_⟩, fun htrue => Bool.noConfusion htrue⟩
        exact h.renamed hrefused hwritten hreason

theorem finishUpload_ends (h : Held options argument files upload s) (hrefused : s.refused = false)
    (hwritten : s.received = s.written) (hreason : s.stopped = !s.ended) :
    Ends (Storing options argument files) (finishUpload options session upload true) s := by
  refine Prog.ensures_bind (Prog.ensures_mono (fun _ => id) (fun persisted s' hpersisted => ?_)
    (persist_ends h hrefused hwritten hreason))
  obtain ⟨hdone, hnot⟩ := hpersisted
  refine Prog.ensures_ite (fun htrue => ?_) (fun hfalse => ?_)
  · obtain ⟨hreplaced, hiff⟩ := hdone htrue
    exact Prog.ensures_bind (syncRoot_ends (unlocked_ends hiff) hreplaced)
  · obtain ⟨hheld, hheard⟩ := hnot (Bool.eq_false_iff.mpr hfalse)
    exact discard_ends hheld hheard

/-- An upload of which not everything has come or has been written. -/
theorem failed_ends (h : Held options argument files upload s) (hstopped : s.stopped = false) :
    Ends (Storing options argument files) (finishUpload options session upload false) s := by
  refine discard_ends h fun htrue => ?_
  exact absurd (hstopped.symm.trans htrue) Bool.false_ne_true

theorem receiveRound_ends (h : Coming options argument files upload [] s) :
    Ends (Storing options argument files) (receiveRound options session upload) s := by
  have hwritten : s.received = s.written := by rw [h.received, List.append_nil]
  refine ends_ask fun stopped => ?_
  cases stopped with
  | true =>
    -- the flag is seen by the condition of the loop, which takes what there is for all
    refine ends_ask fun _ => finishUpload_ends { h.toHeld with } h.refused hwritten ?_
    show true = !s.ended
    rw [h.ended, Bool.not_false]
  | false =>
    refine ends_ask fun readable => Prog.ensures_ite (fun _ => ?_) (fun _ => ?_)
    · exact ends_ask fun _ => failed_ends h.toHeld h.stopped
    refine ends_ask fun received => ?_
    cases received with
    | interrupted => exact ends_done h
    | failed => exact ends_ask fun _ => failed_ends h.toHeld h.stopped
    | bytes bytes =>
      by_cases hnil : bytes = []
      · have hact : s.act ⟨.recvData, .bytes bytes⟩ = { s with ended := true } := if_pos hnil
        show Ends _ _ (s.act ⟨.recvData, .bytes bytes⟩)
        rw [hact]
        refine Prog.ensures_ite (fun _ => ?_) (fun hnot => absurd hnil hnot)
        exact ends_ask fun _ => finishUpload_ends { h.toHeld with } h.refused hwritten h.stopped
      · have hact : s.act ⟨.recvData, .bytes bytes⟩ =
            { s with received := s.received ++ bytes } := if_neg hnil
        show Ends _ _ (s.act ⟨.recvData, .bytes bytes⟩)
        rw [hact]
        refine Prog.ensures_ite (fun hnot => absurd hnot hnil) (fun _ => ?_)
        refine Prog.ensures_ite (fun _ => ?_) (fun _ => ?_)
        · exact ends_ask fun _ => failed_ends { h.toHeld with } h.stopped
        · refine ends_done { h with received := ?_ }
          show s.received ++ bytes = s.written ++ bytes
          rw [hwritten]

theorem writeRound_ends (h : Coming options argument files upload rest s) :
    Ends (Storing options argument files) (writeRound options session upload rest) s := by
  refine Prog.ensures_ite (fun hnil => ?_) (fun _ => ?_)
  · exact ends_done (show Coming options argument files upload [] s from hnil ▸ h)
  refine ends_ask fun written => ?_
  cases written with
  | interrupted => exact ends_done h
  | failed => exact ends_ask fun _ => failed_ends h.toHeld h.stopped
  | bytes count =>
    have hact : s.act ⟨.writeFile upload.descriptor rest, .bytes count⟩ =
        { s with
          files := Function.update s.files upload.temporary (some (s.written ++ rest.take count))
          written := s.written ++ rest.take count } := by
      simp only [Delivery.act, h.opened, h.content, Option.map_some]
    have hheld : Held options argument files upload
        { s with
          files := Function.update s.files upload.temporary (some (s.written ++ rest.take count))
          written := s.written ++ rest.take count } := {
      h.toHeld with
      content := Function.update_self ..
      elsewhere := fun path hpath =>
        (Function.update_of_ne hpath _ _).trans (h.elsewhere path hpath) }
    rw [hact]
    refine Prog.ensures_ite (fun _ => ?_) (fun _ => ?_)
    · exact ends_ask fun _ => failed_ends hheld h.stopped
    · refine ends_done { hheld with
        received := ?_
        ended := h.ended
        stopped := h.stopped
        refused := h.refused }
      rw [h.received, List.append_assoc, List.take_append_drop]

/-- Before anything has been created. -/
theorem begun_iff : AllOrNothing (entryPath options argument) files { files := files } ↔
    Undisturbed { files := files } := by
  refine iff_of_true ⟨?_, fun _ => rfl, ?_⟩ ⟨?_, rfl⟩
  · intro hreplaced
    exact Bool.noConfusion hreplaced
  · intro path hmem
    exact absurd hmem List.not_mem_nil
  · intro hstopped
    exact Bool.noConfusion hstopped

theorem beginUpload_ends {limit : UInt64} (hvalid : validFilename argument = true) :
    Ends (Storing options argument files) (beginUpload options pid session argument limit)
      { files := files } := by
  refine ends_ask fun sequence => ends_ask fun created => ?_
  cases created with
  | none => exact unlocked_ends begun_iff
  | some descriptor =>
    have hapart : entryPath options argument ≠ entryPath options (uploadName pid sequence) := by
      intro heq
      have hname : nameBelow options (entryPath options (uploadName pid sequence)) =
          some (uploadName pid sequence) := by
        refine nameBelow_entryPath ?_
        rw [uploadName_head]
        decide
      rw [← heq, nameBelow_valid hvalid] at hname
      obtain rfl := Option.some.inj hname
      exact absurd (uploadName_hidden pid sequence) (by rw [hvalid]; simp)
    refine ends_ask fun _ => ends_ask fun accepted => ?_
    have hheld : Held options argument files
        { argument := argument
          temporary := entryPath options (uploadName pid sequence)
          descriptor := descriptor
          limit := limit
          total := 0 }
        (Delivery.act { files := files }
          ⟨.createUpload (entryPath options (uploadName pid sequence)), some descriptor⟩) := {
      argument_eq := rfl
      apart := hapart
      opened := Function.update_self ..
      content := Function.update_self ..
      elsewhere := fun path hpath => Function.update_of_ne hpath _ _
      created := rfl
      replaced := rfl
      left := rfl }
    refine Prog.ensures_ite (fun _ => ?_) (fun _ => failed_ends hheld rfl)
    exact ends_done { hheld with
      received := rfl
      ended := rfl
      stopped := rfl
      refused := rfl }

theorem stor_ends : Ends (Storing options argument files) (stor options pid session argument)
    { files := files } := by
  refine Prog.ensures_ite (fun _ => ?_) (fun hguard => ?_)
  · exact ends_ask fun _ => ends_done begun_iff
  have hvalid : validFilename argument = true := by
    simp only [Bool.or_eq_true, Bool.not_eq_true', not_or, Bool.not_eq_false] at hguard
    exact hguard.1
  refine ends_ask fun _ => ends_ask fun listing => Prog.ensures_bind ?_
  refine Prog.ensures_mono (fun _ => id) ?_ (usage_ends listing.1 0 0)
  rintro used _ rfl
  -- whether or not the other files could be counted
  cases (if listing.2 then none else used : Option (UInt64 × ℕ)) with
  | none => exact unlocked_ends begun_iff
  | some used =>
    obtain ⟨bytesInOtherFiles, otherFileCount⟩ := used
    exact Prog.ensures_ite (fun _ => unlocked_ends begun_iff) (fun _ => beginUpload_ends hvalid)

theorem storRun_storing {r : Option Phase}
    (h : StorRun options pid session argument { files := files } r s) :
    Storing options argument files r s := by
  induction h with
  | command exec => exact stor_ends.sound exec
  | @round phase r s s' _ storing exec ih =>
    cases phase with
    | receiving session upload => exact (receiveRound_ends ih).sound exec
    | writing session upload rest => exact (writeRound_ends ih).sound exec
    | _ => exact storing.elim

end Rounds

/-! ### Every run -/

def loggedIn : Session where
  username := ascii "admin"
  authenticated := true

/-- A peer that delivers one byte, on a server that is stopped after it or not. -/
def oneByteAnswer (stops : Bool) (s : Delivery) : (call : FtpCall) → ftpCalls.Answer call
  | .readLine => none
  | .openListener => none
  | .localAddress => none
  | .listRoot => ([], false)
  | .isRegularFile _ => none
  | .fileSize _ => none
  | .createUpload _ => some 5
  | .openFile _ | .openRoot => none
  | .fstat _ => none
  | .recvData => .bytes (if s.received = [] then [0x78] else [])
  | .readFile _ => .failed
  | .writeFile _ bytes => .bytes bytes.length
  | .nextUpload => 0
  | .stopRequested => stops && !s.received.isEmpty
  | .reply _ | .peerAddress | .verifyPassword _ _ | .acceptData | .sendListing _ | .sendData _
  | .waitData | .close _ | .fsync _ | .rename _ _ | .unlink _ => true
  | .closePassive | .closeData | .lock | .unlock => ()

def oneByteEnv (stops : Bool) : Env ftpCalls Delivery where
  answer s call := (oneByteAnswer stops s call, s.act ⟨call, oneByteAnswer stops s call⟩)

/-- The run of STOR after some rounds. -/
def oneByteRun (stops : Bool) : ℕ → Option Phase × Delivery
  | 0 =>
    (stor sampleOptions 1 { loggedIn with passive := true } (ascii "b")).evalIn (oneByteEnv stops)
      { files := fun _ => none }
  | n + 1 =>
    match oneByteRun stops n with
    | (some (.receiving session upload), s) =>
      (receiveRound sampleOptions session upload).evalIn (oneByteEnv stops) s
    | (some (.writing session upload rest), s) =>
      (writeRound sampleOptions session upload rest).evalIn (oneByteEnv stops) s
    | result => result

theorem oneByteRun_run (stops : Bool) (n : ℕ) :
    StorRun sampleOptions 1 { loggedIn with passive := true } (ascii "b") { files := fun _ => none }
      (oneByteRun stops n).1 (oneByteRun stops n).2 := by
  have hworld : ∀ s call, deliveryWorld.answers call s ((oneByteEnv stops).answer s call).1
      ((oneByteEnv stops).answer s call).2 := fun s call => rfl
  induction n with
  | zero => exact .command (Prog.runs_evalIn hworld _ _)
  | succ n ih =>
    rw [oneByteRun]
    split
    · next session upload s hround =>
      rw [hround] at ih
      exact .round ih trivial (Prog.runs_evalIn hworld _ _)
    · next session upload rest s hround =>
      rw [hround] at ih
      exact .round ih trivial (Prog.runs_evalIn hworld _ _)
    · exact ih

end Uhf.Ftp
