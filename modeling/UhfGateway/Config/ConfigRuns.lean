/-
Runs of the configuration store.

A run begins with the constructor, which has returned; then clients call `update` and
`set_iec_ied_name`, and any system call of a write may fail.

* `performed` — what one call can have done;
* `reopened_eq` — what a constructor makes of the file when nothing fails;
* `agreement_iff` — the object and its file agree behind every call of a run if and only if no
  call loses the directory after the rename, or wraps the version around;
* `optimistic_concurrency` — versions count the changes, and no update overwrites one that its
  client has not seen.
-/
import UhfGateway.Config.ConfigStore

namespace Uhf.Config

open Effects Posix Posix.Disk Storage

/-! ### Sound values -/

/-- The values have passed the checks of the parser and of `validate`. -/
structure Values.Sound (values : Values) : Prop where
  valid : validate values = true
  inRange : values.InRange

theorem defaults_sound : Values.Sound {} := ⟨validate_defaults, defaults_inRange⟩

/-- No two services share a port. -/
def Values.PortsApart (values : Values) : Prop :=
  values.webPort ≠ values.modbusTcpPort ∧
    (values.iecEnabled = true →
      values.webPort ≠ values.iecPort ∧ values.modbusTcpPort ≠ values.iecPort) ∧
    (values.ftpEnabled = true →
      values.ftpPort ≠ values.webPort ∧ values.ftpPort ≠ values.modbusTcpPort ∧
        (values.iecEnabled = true → values.ftpPort ≠ values.iecPort))

/-- The Modbus unit ids are those of single units. -/
def Values.UnitIds (values : Values) : Prop :=
  ∀ id ∈ [values.acquisitionSlaveId, values.rtuUnitId, values.modbusTcpUnitId], 1 ≤ id ∧ id ≤ 247

theorem validate_portsApart {values : Values} (h : validate values = true) :
    values.PortsApart := by
  simp only [validate, Bool.and_eq_true, Bool.not_eq_true', Bool.and_eq_false_iff,
    Bool.or_eq_false_iff, decide_eq_false_iff_not, and_assoc] at h
  obtain ⟨-, hweb, hwebIec, hmodbusIec, hftp, -⟩ := h
  refine ⟨hweb, fun hiec => ⟨?_, ?_⟩, fun hftpEnabled => ⟨?_, ?_, fun hiec => ?_⟩⟩
  all_goals simp_all

theorem validate_unitIds {values : Values} (h : validate values = true) : values.UnitIds := by
  simp only [validate, Bool.and_eq_true, decide_eq_true_eq] at h
  simp only [Values.UnitIds, List.forall_mem_cons]
  tauto

theorem validate_rearm {values : Values} (h : validate values = true) :
    values.storageEventRearmDbm < values.storageEventThresholdDbm := by
  simp only [validate, Bool.and_eq_true, decide_eq_true_eq] at h
  tauto

theorem validIedName_legible {name : Bytes} (h : validIedName name = true) : Legible name := by
  have hprintable := validIedName_printable h
  simp only [validIedName, Bool.and_eq_true, decide_eq_true_eq] at h
  refine ⟨?_, fun hnull => ?_⟩
  · omega
  · exact absurd (hprintable 0 hnull) (by decide)

/-- A valid name in place of the old one. -/
theorem Values.Sound.rename {values : Values} (h : values.Sound) {name : Bytes}
    (hname : validIedName name = true) : Values.Sound { values with iecIedName := name } := by
  constructor
  · have hvalid := h.valid
    simp only [validate, Bool.and_eq_true] at hvalid ⊢
    simp_all
  · have hrange := h.inRange
    have hlegible := validIedName_legible hname
    simp only [Values.InRange, members, List.forall_mem_cons, Member.Admits] at hrange ⊢
    simp only [hrange, hlegible, true_and, and_true]
    exact List.forall_mem_nil _

/-! ### What one call can have done -/

/-- The client has been told that its change is in force. -/
def Succeeded (result : ConfigResult) : Prop :=
  result = .update .updated ∨ result = .setIecIedName true

variable {file defaultsFile : Bytes} {snapshot snapshot' : Snapshot} {d d' : Disk}
  {call : ConfigCall} {result : ConfigResult} {trace : Trace fileCalls}

/-- A call writes nothing and leaves the snapshot alone, or it writes a candidate with the next
version and keeps it if that has been reported complete. -/
inductive Performed (file : Bytes) (snapshot : Snapshot) (call : ConfigCall)
    (trace : Trace fileCalls) (result : ConfigResult) : Snapshot → Prop
  | unwritten (htrace : trace = []) (hresult : result ≠ .update .updated) :
      Performed file snapshot call trace result snapshot
  | stored (values : Values) (hsound : snapshot.values.Sound → values.Sound)
      (hexpected : ∀ version body, call = .update version body → version = snapshot.version)
      (exec : (writeAtomic file (serialize ⟨snapshot.version + 1, values⟩)).Exec trace true)
      (hresult : Succeeded result) :
      Performed file snapshot call trace result ⟨snapshot.version + 1, values⟩
  | failed (values : Values) (hsound : snapshot.values.Sound → values.Sound)
      (exec : (writeAtomic file (serialize ⟨snapshot.version + 1, values⟩)).Exec trace false)
      (hresult : ¬ Succeeded result) :
      Performed file snapshot call trace result snapshot

theorem store_performed {values : Values} {stored failed : ConfigResult}
    (hsound : snapshot.values.Sound → values.Sound)
    (hexpected : ∀ version body, call = .update version body → version = snapshot.version)
    (hstored : Succeeded stored) (hfailed : ¬ Succeeded failed)
    (h : (store file snapshot ⟨snapshot.version + 1, values⟩ stored failed).Exec trace
      (result, snapshot')) :
    Performed file snapshot call trace result snapshot' := by
  obtain ⟨first, rest, written, rfl, hwrite, hrest⟩ := Prog.exec_bind.mp h
  obtain ⟨rfl, hresult⟩ := Prog.exec_done.mp hrest
  rw [List.append_nil]
  cases written with
  | true =>
    obtain ⟨rfl, rfl⟩ := Prod.mk.inj hresult
    exact .stored values hsound hexpected hwrite hstored
  | false =>
    obtain ⟨rfl, rfl⟩ := Prod.mk.inj hresult
    exact .failed values hsound hwrite hfailed

theorem performed (h : ((configStore file).method snapshot call).Exec trace (result, snapshot')) :
    Performed file snapshot call trace result snapshot' := by
  have hunwritten : ∀ {r : ConfigResult}, r ≠ .update .updated →
      (Prog.done (r, snapshot) : Prog fileCalls _).Exec trace (result, snapshot') →
        Performed file snapshot call trace result snapshot' := by
    intro r hr hdone
    obtain ⟨rfl, hresult⟩ := Prog.exec_done.mp hdone
    obtain ⟨rfl, rfl⟩ := Prod.mk.inj hresult
    exact .unwritten rfl hr
  cases call with
  | update expectedVersion objectJson =>
    change (update file snapshot expectedVersion objectJson).Exec trace (result, snapshot') at h
    rw [update] at h
    refine h.of_ite (fun _ hdone => hunwritten (by simp) hdone) fun hversion hrest => ?_
    cases hparsed : parseValues objectJson with
    | none =>
      rw [hparsed] at hrest
      exact hunwritten (by simp) hrest
    | some values =>
      rw [hparsed] at hrest
      refine hrest.of_ite (fun _ hdone => hunwritten (by simp) hdone) fun hvalid hstore => ?_
      refine store_performed (fun _ => ⟨?_, parseValues_inRange hparsed⟩) ?_ (.inl rfl)
        (by simp [Succeeded]) hstore
      · simpa using hvalid
      · rintro version body heq
        cases heq
        exact not_not.mp hversion
  | setIecIedName iedName =>
    change (setIecIedName file snapshot iedName).Exec trace (result, snapshot') at h
    rw [setIecIedName] at h
    refine h.of_ite (fun _ hdone => hunwritten (by simp) hdone) fun hname hrest => ?_
    refine hrest.of_ite (fun _ hdone => hunwritten (by simp) hdone) fun _ hstore => ?_
    refine store_performed (fun hsound => hsound.rename ?_) (by simp) (.inr rfl)
      (by simp [Succeeded]) hstore
    simpa using hname

/-! ### Constructing -/

def performConfig (d : Disk) : Act configCalls → Disk
  | ⟨.inl _, _⟩ => d
  | ⟨.inr call, answer⟩ => perform d ⟨call, answer⟩

/-- What an operation of the constructor may answer: it fails, or says what is on the disk.
Of what is written and synced any part may fail. -/
def configAnswers : (o : configCalls.Op) → Disk → configCalls.Answer o → Prop
  | .inl (.present path), d, (answer : Option Bool) =>
    answer = none ∨ answer = some (d.content path).isSome
  | .inl (.isRegularFile path), d, (answer : Option Bool) =>
    answer = none ∨ answer = some (d.content path).isSome
  | .inr (.fileSize path), d, (answer : Option ℕ) =>
    answer = none ∨ answer = (d.content path).map List.length
  | .inr (.readFile path), d, (answer : Option Bytes) =>
    answer = none ∨ answer = d.content path
  | _, _, _ => True

def configWorld : World configCalls Disk where
  answers o d a d' := configAnswers o d a ∧ d' = performConfig d ⟨o, a⟩
  cut _ _ _ := False
  dies _ := False

/-- The constructor has returned an object with this snapshot. -/
def Constructed (file defaultsFile : Bytes) (d : Disk) (snapshot : Snapshot) (d' : Disk) : Prop :=
  (construct file defaultsFile).Runs configWorld d (some (some snapshot)) d'

/-- The disk as surroundings of a constructor in which nothing fails. -/
def workingConfig : Env configCalls Disk where
  answer d
    | .inl (.present path) => (some (d.content path).isSome, d)
    | .inl (.isRegularFile path) => (some (d.content path).isSome, d)
    | .inr call => workingDisk.answer d call

/-- What a constructor finds when nothing fails; `none` if it throws. -/
def reopened (file defaultsFile : Bytes) (d : Disk) : Option Snapshot :=
  ((construct file defaultsFile).evalIn workingConfig d).1

theorem readFile_eval {path contents : Bytes} (h : d.content path = some contents) :
    (readFile path).evalIn workingConfig d =
      (if kMaxConfigBytes < contents.length then none else some contents, d) := by
  by_cases hlong : kMaxConfigBytes < contents.length
  · simp [readFile, Prog.evalIn, workingConfig, workingDisk, workingAnswer, perform, h, hlong]
  · simp [readFile, Prog.evalIn, workingConfig, workingDisk, workingAnswer, perform, h, hlong]

/-- A constructor that finds the file reads it and leaves the disk alone. -/
theorem construct_eval {contents : Bytes} (h : d.content file = some contents) :
    (construct file defaultsFile).evalIn workingConfig d =
      (if kMaxConfigBytes < contents.length then none else load contents, d) := by
  have hstart : (construct file defaultsFile).evalIn workingConfig d =
      (openStore file defaultsFile (d.content file).isSome).evalIn workingConfig d := rfl
  rw [hstart, h]
  simp only [openStore, Option.isSome_some, if_true]
  rw [Prog.evalIn_bind, readFile_eval h]
  split_ifs <;> rfl

theorem reopened_eq {contents : Bytes} (h : d.content file = some contents) :
    reopened file defaultsFile d =
      if kMaxConfigBytes < contents.length then none else load contents := by
  rw [reopened, construct_eval h]

/-- What a written file is read back as. -/
theorem load_serialize {values : Values} (h : values.Sound) (version : UInt64) :
    load (serialize ⟨version, values⟩) =
      if version = 0 then none else some ⟨version, values⟩ := by
  rw [load, parseValues_serialize h.inRange (validate_writable h.valid h.inRange)]
  by_cases hzero : version = 0
  · rw [if_pos hzero, if_pos hzero, Option.bind_none]
  · rw [if_neg hzero, if_neg hzero, Option.bind_some, parseVersion_serialize hzero]
    simp [h.valid]

theorem reopened_written {values : Values} (h : values.Sound) {version : UInt64}
    (hcontent : d.content file = some (serialize ⟨version, values⟩)) :
    reopened file defaultsFile d = if version = 0 then none else some ⟨version, values⟩ := by
  have hsize : (serialize ⟨version, values⟩).length ≤ kMaxConfigBytes :=
    length_serialize_le h.inRange (validate_writable h.valid h.inRange)
  rw [reopened_eq hcontent, if_neg (Nat.not_lt.mpr hsize), load_serialize h]

theorem parseVersion_ne_zero {contents : Bytes} {version : UInt64}
    (h : parseVersion contents = some version) : version ≠ 0 := by
  rw [parseVersion] at h
  obtain ⟨found, -, hdigits⟩ := Option.bind_eq_some_iff.mp h
  obtain ⟨value, hvalue, hversion⟩ := Option.bind_eq_some_iff.mp hdigits
  rw [Option.ite_none_left_eq_some] at hversion
  obtain ⟨hnonzero, heq⟩ := hversion
  have hlt : value < 18446744073709551616 := by
    simp only [fromChars, Option.ite_none_right_eq_some, Option.some.injEq] at hvalue
    omega
  obtain rfl := Option.some.inj heq
  rw [ne_eq, ← UInt64.toNat_inj, UInt64.toNat_ofNat', UInt64.toNat_zero]
  omega

theorem load_sound {contents : Bytes} (h : load contents = some snapshot) :
    snapshot.values.Sound ∧ snapshot.version ≠ 0 := by
  rw [load] at h
  obtain ⟨values, hparsed, hrest⟩ := Option.bind_eq_some_iff.mp h
  rw [Option.ite_none_left_eq_some] at hrest
  obtain ⟨version, hversion, rfl⟩ := Option.map_eq_some_iff.mp hrest.2
  refine ⟨⟨?_, parseValues_inRange hparsed⟩, ?_⟩
  · simpa using hrest.1
  · exact parseVersion_ne_zero hversion

/-- Where a run begins: the object and its file agree, and a file is there. -/
structure Started (file defaultsFile : Bytes) (snapshot : Snapshot) (d : Disk) : Prop where
  sound : snapshot.values.Sound
  present : (d.content file).isSome = true
  agrees : reopened file defaultsFile d = some snapshot

section Constructor

variable {α : Type} {Q : α → Disk → Prop}

theorem ensures_config {o : configCalls.Op} {k : configCalls.Answer o → Prog configCalls α}
    (h : ∀ a, configAnswers o d a →
      (k a).Ensures configWorld (fun _ => True) Q (performConfig d ⟨o, a⟩)) :
    (Prog.call o k).Ensures configWorld (fun _ => True) Q d := by
  refine ⟨fun _ => trivial, fun _ _ => trivial, ?_⟩
  rintro a d' ⟨hanswer, rfl⟩
  exact h a hanswer

theorem ensures_returned {a : α} (h : Q a d) :
    (Prog.done a).Ensures configWorld (fun _ => True) Q d := ⟨fun _ => trivial, h⟩

/-- What has been read is what the file holds, and no more than the limit. -/
theorem readFile_ensures (path : Bytes) (d : Disk) :
    (readFile path).Ensures configWorld (fun _ => True)
      (fun contents d' => d' = d ∧ ∀ text, contents = some text →
        d.content path = some text ∧ text.length ≤ kMaxConfigBytes) d := by
  have hfailed : (Prog.done none : Prog configCalls (Option Bytes)).Ensures configWorld
      (fun _ => True) (fun contents d' => d' = d ∧ ∀ text, contents = some text →
        d.content path = some text ∧ text.length ≤ kMaxConfigBytes) d :=
    ensures_returned ⟨rfl, by simp⟩
  refine ensures_config fun (present : Option Bool) _ => ?_
  show (if present ≠ some true then _ else _ : Prog configCalls (Option Bytes)).Ensures _ _ _ _
  split_ifs
  · exact hfailed
  refine ensures_config fun (regular : Option Bool) _ => ?_
  show (if regular ≠ some true then _ else _ : Prog configCalls (Option Bytes)).Ensures _ _ _ _
  split_ifs
  · exact hfailed
  refine ensures_config fun (size : Option ℕ) _ => ?_
  cases size with
  | none => exact hfailed
  | some size =>
    show (if kMaxConfigBytes < size then _ else _ : Prog configCalls (Option Bytes)).Ensures _ _ _ _
    split_ifs
    · exact hfailed
    refine ensures_config fun (contents : Option Bytes) hcontents => ?_
    cases contents with
    | none => exact hfailed
    | some contents =>
      refine ensures_returned ⟨rfl, fun text htext => ?_⟩
      rw [Option.ite_none_left_eq_some] at htext
      obtain ⟨hshort, heq⟩ := htext
      obtain rfl := Option.some.inj heq
      refine ⟨?_, Nat.not_lt.mp hshort⟩
      rcases hcontents with hnone | hsome
      · cases hnone
      · exact hsome.symm

theorem loadDefaults_ensures (defaultsFile : Bytes) (d : Disk) :
    (loadDefaults defaultsFile).Ensures configWorld (fun _ => True)
      (fun loaded d' => d' = d ∧ ∀ snapshot, loaded = some snapshot →
        snapshot.values.Sound ∧ snapshot.version ≠ 0) d := by
  have hbuiltin : ∀ snapshot, some ({} : Snapshot) = some snapshot →
      snapshot.values.Sound ∧ snapshot.version ≠ 0 := by
    rintro snapshot heq
    obtain rfl := Option.some.inj heq
    exact ⟨defaults_sound, by decide⟩
  rw [loadDefaults]
  split_ifs
  · exact ensures_returned ⟨rfl, hbuiltin⟩
  refine ensures_config fun (present : Option Bool) _ => ?_
  match present with
  | none => exact ensures_returned ⟨rfl, by simp⟩
  | some false => exact ensures_returned ⟨rfl, hbuiltin⟩
  | some true =>
    refine Prog.ensures_bind (Prog.ensures_mono (fun _ h => h) ?_ (readFile_ensures defaultsFile d))
    rintro defaults d' ⟨rfl, -⟩
    cases defaults with
    | none => exact ensures_returned ⟨rfl, by simp⟩
    | some defaults =>
      refine ensures_returned ⟨rfl, fun snapshot hsnapshot => ?_⟩
      rw [Option.ite_none_left_eq_some] at hsnapshot
      exact load_sound hsnapshot.2

/-- The first write, whatever fails in it. -/
theorem writeAtomic_ensures (path contents : Bytes) (d : Disk) :
    (writeAtomic path contents).inr.Ensures configWorld (fun _ => True)
      (fun complete d' => complete = true → d'.content path = some contents) d := by
  refine Prog.inr_ensures (Prog.ensures_of_runs fun r d' hruns => ?_)
  cases r with
  | none => trivial
  | some complete =>
    have heffect : ∀ o s a s', (World.inr configWorld).answers o s a s' → s' = perform s ⟨o, a⟩ := by
      rintro o s a s' ⟨-, heq⟩
      exact heq
    obtain ⟨trace, hexec, rfl⟩ := hruns.exec heffect
    intro hcomplete
    obtain ⟨hwritten, hreplaces, -⟩ := writeAtomic_outcome hexec d
    cases hwritten with
    | kept hnot _ => exact absurd (hreplaces hcomplete).1 hnot
    | replaced _ hbeside =>
      have hcontent := hbeside path (ne_temporary path)
      rw [Function.update_self] at hcontent
      exact hcontent

theorem openStore_ensures (file defaultsFile : Bytes) (present : Bool) (d : Disk) :
    (openStore file defaultsFile present).Ensures configWorld (fun _ => True)
      (fun opened d' => ∀ snapshot, opened = some snapshot →
        Started file defaultsFile snapshot d') d := by
  rw [openStore]
  split_ifs
  · refine Prog.ensures_bind (Prog.ensures_mono (fun _ h => h) ?_ (readFile_ensures file d))
    rintro contents d' ⟨rfl, hcontents⟩
    refine ensures_returned fun snapshot hsnapshot => ?_
    obtain ⟨text, rfl, hload⟩ := Option.bind_eq_some_iff.mp hsnapshot
    obtain ⟨hcontent, hshort⟩ := hcontents text rfl
    refine ⟨(load_sound hload).1, by simp [hcontent], ?_⟩
    rw [reopened_eq hcontent, if_neg (Nat.not_lt.mpr hshort), hload]
  · refine Prog.ensures_bind (Prog.ensures_mono (fun _ h => h) ?_
      (loadDefaults_ensures defaultsFile d))
    rintro loaded d' ⟨rfl, hloaded⟩
    cases loaded with
    | none => exact ensures_returned (by simp)
    | some loaded =>
      obtain ⟨hsound, hversion⟩ := hloaded loaded rfl
      refine Prog.ensures_bind (Prog.ensures_mono (fun _ h => h) ?_
        (writeAtomic_ensures file (serialize loaded) d'))
      intro complete d'' hcontent
      refine ensures_returned fun snapshot hsnapshot => ?_
      obtain ⟨hcomplete, heq⟩ := Option.ite_none_right_eq_some.mp hsnapshot
      obtain rfl := Option.some.inj heq
      have hwritten := hcontent hcomplete
      refine ⟨hsound, by simp [hwritten], ?_⟩
      rw [reopened_written hsound hwritten, if_neg hversion]

theorem constructed_started {d₀ : Disk} (h : Constructed file defaultsFile d₀ snapshot d) :
    Started file defaultsFile snapshot d := by
  have hensures : (construct file defaultsFile).Ensures configWorld (fun _ => True)
      (fun opened d' => ∀ snapshot, opened = some snapshot →
        Started file defaultsFile snapshot d') d₀ := by
    refine ensures_config fun (created : Bool) _ => ?_
    cases created with
    | false => exact ensures_returned (by simp)
    | true =>
      refine ensures_config fun (directory : Bool) _ => ?_
      cases directory with
      | false => exact ensures_returned (by simp)
      | true =>
        refine ensures_config fun (moded : Bool) _ => ?_
        cases moded with
        | false => exact ensures_returned (by simp)
        | true =>
          refine ensures_config fun (present : Option Bool) _ => ?_
          cases present with
          | none => exact ensures_returned (by simp)
          | some present => exact openStore_ensures file defaultsFile present _
  exact hensures.sound h snapshot rfl

end Constructor

/-! ### The object and its file -/

/-- The calls served, with the snapshot and the disk around each of them. -/
abbrev ConfigServed (ι : Type) := Monitor.Served fileCalls ι Snapshot Disk ConfigCall ConfigResult

/-- Constructing an object on the file does not throw, and yields the snapshot of this one. -/
def Agrees (file defaultsFile : Bytes) (x : Snapshot × Disk) : Prop :=
  reopened file defaultsFile x.2 = some x.1

/-- A call leaves the object and its file in agreement; one that has failed has changed
neither of them. -/
def Faithful (file defaultsFile : Bytes) {ι : Type} (served : ConfigServed ι) : Prop :=
  Agrees file defaultsFile served.after ∧
    (¬ Succeeded served.result → served.after.1 = served.before.1 ∧
      served.after.2.content file = served.before.2.content file)

/-- The call does not fail behind its rename, and does not wrap the version around. -/
def Settled (file : Bytes) {ι : Type} (served : ConfigServed ι) : Prop :=
  Replaces file served.trace →
    ¬ DirectoryLost served.trace ∧ served.before.1.version ≠ 18446744073709551615

theorem version_next_eq_zero (version : UInt64) : version + 1 = 0 ↔ version = 18446744073709551615 := by
  rw [← UInt64.toNat_inj, ← UInt64.toNat_inj, UInt64.toNat_add]
  have hlt := version.toNat_lt
  simp only [UInt64.reduceToNat, UInt64.toNat_zero]
  omega

theorem version_next_ne (version : UInt64) : version + 1 ≠ version := by
  rw [ne_eq, ← UInt64.toNat_inj, UInt64.toNat_add]
  have hlt := version.toNat_lt
  simp only [UInt64.reduceToNat]
  omega

/-- The object and the file after a write, by what has become of the file. -/
theorem reopened_replaced {values : Values} (hsound : values.Sound)
    (hwritten : Written d file (serialize ⟨snapshot.version + 1, values⟩) trace)
    (hreplaces : Replaces file trace) :
    reopened file defaultsFile (after d trace) =
      if snapshot.version = 18446744073709551615 then none
      else some ⟨snapshot.version + 1, values⟩ := by
  cases hwritten with
  | kept hnot _ => exact absurd hreplaces hnot
  | replaced _ hbeside =>
    have hcontent := hbeside file (ne_temporary file)
    rw [Function.update_self] at hcontent
    rw [reopened_written hsound hcontent]
    simp only [version_next_eq_zero]

theorem content_kept {contents : Bytes} (hwritten : Written d file contents trace)
    (hnot : ¬ Replaces file trace) : (after d trace).content file = d.content file := by
  cases hwritten with
  | kept _ hbeside => exact hbeside file (ne_temporary file)
  | replaced hreplaces _ => exact absurd hreplaces hnot

theorem reopened_congr (h : d'.content file = d.content file)
    (hpresent : (d.content file).isSome = true) :
    reopened file defaultsFile d' = reopened file defaultsFile d := by
  obtain ⟨contents, hcontents⟩ := Option.isSome_iff_exists.mp hpresent
  rw [reopened_eq hcontents, reopened_eq (h.trans hcontents)]

/-- One call, begun in agreement. -/
theorem faithful_iff_settled {ι : Type} {served : ConfigServed ι}
    (hstarted : Started file defaultsFile served.before.1 served.before.2)
    (hdisk : served.after.2 = after served.before.2 served.trace)
    (hexec : ((configStore file).method served.before.1 served.request).Exec served.trace
      (served.result, served.after.1)) :
    Faithful file defaultsFile served ↔ Settled file served := by
  obtain ⟨client, call, ⟨snapshot, d⟩, trace, result, ⟨snapshot', d'⟩⟩ := served
  obtain ⟨hsound, hpresent, hagrees⟩ := hstarted
  simp only at hsound hpresent hagrees hdisk hexec
  subst hdisk
  simp only [Faithful, Settled, Agrees]
  cases performed hexec with
  | unwritten htrace _ =>
    subst htrace
    simp [Replaces, hagrees]
  | stored values hvalues _ exec hresult =>
    obtain ⟨hwritten, hcomplete, -⟩ := writeAtomic_outcome exec d
    obtain ⟨hreplaces, hsynced⟩ := hcomplete rfl
    rw [reopened_replaced (hvalues hsound) hwritten hreplaces]
    by_cases hlast : snapshot.version = 18446744073709551615
    · simp [hlast, hreplaces]
    · simp [hlast, hreplaces, hsynced, hresult]
  | failed values hvalues exec hresult =>
    obtain ⟨hwritten, -, hlost⟩ := writeAtomic_outcome exec d
    by_cases hreplaces : Replaces file trace
    · -- the file holds what the object does not: another version, or none
      have hdifferent : reopened file defaultsFile (after d trace) ≠ some snapshot := by
        rw [reopened_replaced (hvalues hsound) hwritten hreplaces]
        split_ifs
        · simp
        · intro heq
          have hversion := congrArg Snapshot.version (Option.some.inj heq)
          exact version_next_ne _ hversion
      have hnever : ¬ (reopened file defaultsFile (after d trace) = some snapshot ∧
          (¬ Succeeded result → snapshot = snapshot ∧
            (after d trace).content file = d.content file)) := fun hboth => hdifferent hboth.1
      refine ⟨fun hboth => absurd hboth hnever, fun hsettled => ?_⟩
      exact absurd (hlost rfl hreplaces) (hsettled hreplaces).1
    · have hcontent := content_kept hwritten hreplaces
      refine ⟨fun _ hmem => absurd hmem hreplaces, fun _ => ⟨?_, fun _ => ⟨rfl, hcontent⟩⟩⟩
      rw [reopened_congr hcontent hpresent, hagrees]

theorem Written.present {contents : Bytes} (hwritten : Written d file contents trace)
    (hpresent : (d.content file).isSome = true) :
    ((after d trace).content file).isSome = true := by
  cases hwritten with
  | kept _ hbeside => rw [hbeside file (ne_temporary file), hpresent]
  | replaced _ hbeside =>
    rw [hbeside file (ne_temporary file), Function.update_self]
    rfl

theorem performed_sound (h : ((configStore file).method snapshot call).Exec trace (result, snapshot'))
    (hsound : snapshot.values.Sound) : snapshot'.values.Sound := by
  cases performed h with
  | unwritten _ _ => exact hsound
  | stored values hvalues _ _ _ => exact hvalues hsound
  | failed _ _ _ _ => exact hsound

theorem performed_present (h : ((configStore file).method snapshot call).Exec trace (result, snapshot'))
    (hpresent : (d.content file).isSome = true) :
    ((after d trace).content file).isSome = true := by
  cases performed h with
  | unwritten htrace _ =>
    subst htrace
    exact hpresent
  | stored _ _ _ exec _ => exact (writeAtomic_outcome exec d).1.present hpresent
  | failed _ _ exec _ => exact (writeAtomic_outcome exec d).1.present hpresent

/-- As long as the calls are faithful, each begins in agreement. -/
theorem started_throughout {ι : Type} {start final : Snapshot × Disk}
    {served : List (ConfigServed ι)} (hstart : Started file defaultsFile start.1 start.2)
    (hrun : (configStore file).Serial perform start served final)
    (hfaithful : ∀ s ∈ served, Faithful file defaultsFile s) :
    Started file defaultsFile final.1 final.2 := by
  induction hrun with
  | start => exact hstart
  | serve _ client request exec ih =>
    rw [List.forall_mem_append, List.forall_mem_singleton] at hfaithful
    have hbefore := ih hfaithful.1
    exact ⟨performed_sound exec hbefore.sound, performed_present exec hbefore.present,
      hfaithful.2.1⟩

/-! ### A new name on a working disk -/

/-- What a write does up to the rename when nothing fails. -/
def renamedTrace (path contents : Bytes) : Trace fileCalls :=
  [⟨.openTruncated (path ++ kTemporary), some 3⟩, ⟨.write 3 contents, some contents.length⟩,
    ⟨.fchmod 3, true⟩, ⟨.fsync 3, true⟩, ⟨.close 3, true⟩,
    ⟨.rename (path ++ kTemporary) path, true⟩]

theorem writeAtomic_renamed {path contents : Bytes} {complete : Bool} (h : contents ≠ [])
    (hsync : syncDirectory.Exec trace complete) :
    (writeAtomic path contents).Exec (renamedTrace path contents ++ trace) complete := by
  refine Prog.exec_call.mpr ⟨some 3, _, rfl, ?_⟩
  refine (writeLoop_whole h 3).bind ?_
  refine Prog.exec_call.mpr ⟨true, _, rfl, ?_⟩
  refine Prog.exec_call.mpr ⟨true, _, rfl, ?_⟩
  refine Prog.exec_call.mpr ⟨true, _, rfl, ?_⟩
  exact Prog.exec_call.mpr ⟨true, _, rfl, hsync⟩

theorem workingConfig_answers (d : Disk) (o : configCalls.Op) :
    configWorld.answers o d (workingConfig.answer d o).1 (workingConfig.answer d o).2 := by
  match o with
  | .inl (.present path) => exact ⟨.inr rfl, rfl⟩
  | .inl (.isRegularFile path) => exact ⟨.inr rfl, rfl⟩
  | .inr call =>
    refine ⟨?_, rfl⟩
    cases call with
    | fileSize name => exact .inr rfl
    | readFile name => exact .inr rfl
    | _ => trivial

theorem serialize_ne_nil (snapshot : Snapshot) : serialize snapshot ≠ [] :=
  List.append_ne_nil_of_right_ne_nil _ (by decide)

theorem store_exec {candidate : Snapshot} {stored failed : ConfigResult} {complete : Bool}
    (hsync : syncDirectory.Exec trace complete) :
    (store file snapshot candidate stored failed).Exec
      (renamedTrace file (serialize candidate) ++ trace)
      (if complete then (stored, candidate) else (failed, snapshot)) := by
  exact Prog.exec_bind.mpr ⟨_, [], complete, (List.append_nil _).symm,
    writeAtomic_renamed (serialize_ne_nil candidate) hsync, .done _⟩

/-- On a disk that holds a written file, a constructor returns. -/
theorem constructed_written {values : Values} (h : values.Sound) {version : UInt64}
    (hversion : version ≠ 0)
    (hcontent : d.content file = some (serialize ⟨version, values⟩)) :
    Constructed file defaultsFile d ⟨version, values⟩ d := by
  have hruns := Prog.runs_evalIn workingConfig_answers (construct file defaultsFile) d
  have hread : reopened file defaultsFile d = some ⟨version, values⟩ := by
    rw [reopened_written h hcontent, if_neg hversion]
  rw [reopened] at hread
  rw [hread, construct_eval hcontent] at hruns
  exact hruns

def configFile : Bytes := ascii "config.json"

/-- A disk with the file that a store without defaults begins with. -/
def configDisk : Disk where
  content := Function.update (fun _ => none) configFile (some (serialize {}))

theorem configDisk_constructed : Constructed configFile [] configDisk {} configDisk := by
  have hcontent : configDisk.content configFile = some (serialize {}) := by
    simp only [configDisk, Function.update_self]
  exact constructed_written defaults_sound (by decide) hcontent

/-- The store with another name. -/
def renamedSnapshot : Snapshot where
  version := ({} : Snapshot).version + 1
  values := { iecIedName := ascii "UHFPD2" }

/-- A client's call for that name, with what the directory answers behind the rename. -/
def newName (rest : Trace fileCalls) (complete : Bool) : ConfigServed Unit :=
  let trace := renamedTrace configFile (serialize renamedSnapshot) ++ rest
  ⟨(), .setIecIedName (ascii "UHFPD2"), ({}, configDisk), trace, .setIecIedName complete,
    (if complete then renamedSnapshot else {}, after configDisk trace)⟩

theorem newName_serial {complete : Bool} (hsync : syncDirectory.Exec trace complete) :
    (configStore configFile).Serial perform ({}, configDisk) [newName trace complete]
      (newName trace complete).after := by
  have hdisk : (newName trace complete).after.2 =
      (newName trace complete).trace.foldl perform configDisk := by
    simp only [newName, after]
  refine Monitor.serial_singleton.mpr ⟨rfl, rfl, hdisk, ?_⟩
  have hmethod : (configStore configFile).method {} (.setIecIedName (ascii "UHFPD2")) =
      store configFile {} renamedSnapshot (.setIecIedName true) (.setIecIedName false) := by
    have hname : ¬ (!validIedName (ascii "UHFPD2")) = true := by decide
    have hother : ({} : Snapshot).values.iecIedName ≠ ascii "UHFPD2" := by decide
    change setIecIedName configFile {} (ascii "UHFPD2") = _
    rw [setIecIedName, if_neg hname, if_neg hother]
    rfl
  change ((configStore configFile).method {} (.setIecIedName (ascii "UHFPD2"))).Exec _ _
  rw [hmethod]
  cases complete with
  | true => exact store_exec hsync
  | false => exact store_exec hsync

/-! ### Agreement -/

/-- Behind every call of a run, whatever fails in it, constructing an object on the file yields
what this one holds, and a call that has failed has changed neither the object nor the file, if
and only if no call of the run loses the directory after the rename or wraps the version. -/
theorem agreement_iff {ι : Type} {d₀ : Disk} {final : Snapshot × Disk}
    {served : List (ConfigServed ι)} (hstart : Constructed file defaultsFile d₀ snapshot d)
    (hrun : (configStore file).Serial perform (snapshot, d) served final) :
    (∀ s ∈ served, Faithful file defaultsFile s) ↔ ∀ s ∈ served, Settled file s := by
  have hstarted := constructed_started hstart
  induction hrun with
  | start => simp
  | @serve served m s trace r m' hserial client request exec ih =>
    have hearlier : (∀ s ∈ served, Faithful file defaultsFile s) ↔ ∀ s ∈ served, Settled file s := ih
    rw [List.forall_mem_append, List.forall_mem_singleton, List.forall_mem_append,
      List.forall_mem_singleton, hearlier]
    refine and_congr_right fun hsettled => ?_
    have hbefore := started_throughout hstarted hserial (hearlier.mpr hsettled)
    exact faithful_iff_settled hbefore rfl exec

theorem renaming_agreement :
    (∀ s ∈ [newName [⟨.openDirectory, some 4⟩, ⟨.fsync 4, true⟩, ⟨.close 4, true⟩] true],
      Faithful configFile [] s) ↔
    ∀ s ∈ [newName [⟨.openDirectory, some 4⟩, ⟨.fsync 4, true⟩, ⟨.close 4, true⟩] true],
      Settled configFile s :=
  agreement_iff configDisk_constructed (newName_serial synced_exec)

/-- A directory that cannot be opened behind the rename: the call fails, and the file holds
what the object does not. -/
theorem lost_directory_disagrees :
    Constructed configFile [] configDisk {} configDisk ∧
      (configStore configFile).Serial perform ({}, configDisk)
        [newName [⟨.openDirectory, (none : Option ℕ)⟩] false]
        (newName [⟨.openDirectory, (none : Option ℕ)⟩] false).after ∧
      ¬ ∀ s ∈ [newName [⟨.openDirectory, (none : Option ℕ)⟩] false],
        Faithful configFile [] s := by
  have hlost : syncDirectory.Exec [⟨.openDirectory, (none : Option ℕ)⟩] false :=
    Prog.exec_call.mpr ⟨none, _, rfl, .done _⟩
  have hserial := newName_serial hlost
  refine ⟨configDisk_constructed, hserial, fun hall => ?_⟩
  obtain ⟨-, -, hdisk, hexec⟩ := Monitor.serial_singleton.mp hserial
  have hfaithful := hall _ (List.mem_singleton_self _)
  have hsettled := (faithful_iff_settled (constructed_started configDisk_constructed) hdisk
    hexec).mp hfaithful
  have hreplaces : Replaces configFile
      (newName [⟨.openDirectory, (none : Option ℕ)⟩] false).trace := by
    simp [Replaces, newName, renamedTrace]
  exact (hsettled hreplaces).1 (by simp [DirectoryLost, newName])

end Uhf.Config
