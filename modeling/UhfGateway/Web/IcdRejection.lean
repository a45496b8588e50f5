/-
What an upload or a restore of the ICD file leaves behind when it is rejected.

The route writes the file first.  When the name of the IED cannot be saved, or the model is not
accepted, it undoes this with the operations it has: `replace` with the old override, or
`discard_override` where there was none.  But `replace` keeps what it replaces, so the rejected
document becomes the previous version.

* `undone_restores_iff` — on the two files alone;
* `rejection_restores_iff` — for every request that is rejected.
-/
import UhfGateway.Config.ConfigRuns
import UhfGateway.Web.IcdStore
import UhfGateway.Web.Routes

namespace Uhf.Web

open Effects Posix Storage

/-! ### The files -/

namespace IcdFiles

/-- There is an override that can be read and would be accepted again. -/
def Accepted (files : IcdFiles) : Prop :=
  ∃ contents, readable files.override = some contents ∧ (validate contents).isSome

/-- What undoing makes of `now`; `files` is what there was before. -/
def undone (files now : IcdFiles) : IcdFiles :=
  match readable files.override with
  | none => now.discarded
  | some contents => if (validate contents).isSome then now.replaced contents else now

/-- When an upload of these contents can be undone. -/
def UploadUndoable (files : IcdFiles) (contents : Bytes) : Prop :=
  files.override = none ∨ files.Accepted ∧ files.previous = some contents

/-- When a restore can be undone. -/
def RestoreUndoable (files : IcdFiles) : Prop :=
  files.Accepted ∧ (files.previous = none ∨ (readable files.previous).isSome) ∨
    readable files.previous = readable files.override

variable {files : IcdFiles} {contents override previous : Bytes}

theorem readable_some {read : Option Bytes} (h : readable read = some contents) :
    read = some contents ∧ readable (some contents) = some contents := by
  have heq : read = some contents := (Option.filter_eq_some_iff.mp h).1
  subst heq
  exact ⟨rfl, h⟩

theorem readable_of_valid (h : (validate contents).isSome) :
    readable (some contents) = some contents := by
  obtain ⟨iedName, hname⟩ := Option.isSome_iff_exists.mp h
  have hlength := validate_length hname
  simp [readable, Option.filter_some, hlength]

theorem accepted_iff (h : readable files.override = some override) :
    files.Accepted ↔ (validate override).isSome := by
  simp [Accepted, h]

/-- An upload that is undone leaves no trace only where the previous version was the uploaded
document already, or there was no override. -/
theorem upload_undone_iff (hvalid : (validate contents).isSome) :
    files.undone (files.replaced contents) = files ↔ files.UploadUndoable contents := by
  have hreadable := readable_of_valid hvalid
  cases hoverride : readable files.override with
  | none =>
    have hnot : ¬ files.Accepted := by simp [Accepted, hoverride]
    simp only [undone, hoverride, replaced, discarded, Option.none_or, UploadUndoable, hnot, false_and,
      or_false]
    constructor
    · intro h
      rw [← h]
    · intro h
      ext <;> simp [h]
  | some override =>
    obtain ⟨hcontent, -⟩ := readable_some hoverride
    have hreplaced : files.replaced contents = ⟨some contents, some override⟩ := by
      rw [replaced, hoverride]
      rfl
    rw [undone, hoverride, hreplaced, UploadUndoable, accepted_iff hoverride]
    dsimp only
    by_cases hold : (validate override).isSome
    · rw [if_pos hold, replaced, hreadable]
      simp [IcdFiles.ext_iff, hcontent, hold, eq_comm]
    · rw [if_neg hold]
      simp only [hold, hcontent, Bool.false_eq_true, false_and, reduceCtorEq, or_false, iff_false]
      intro h
      have heq : some contents = files.override := congrArg IcdFiles.override h
      rw [hcontent, Option.some.injEq] at heq
      exact hold (heq ▸ hvalid)

theorem restore_undone_iff (h : (readable files.override).isSome) :
    files.undone files.restored = files ↔ files.RestoreUndoable := by
  obtain ⟨override, hoverride⟩ := Option.isSome_iff_exists.mp h
  obtain ⟨hcontent, hsmall⟩ := readable_some hoverride
  have hnone : readable none = none := rfl
  rw [undone, hoverride, RestoreUndoable, accepted_iff hoverride, restored]
  dsimp only
  cases hprevious : readable files.previous with
  | none =>
    by_cases hold : (validate override).isSome
    · simp [hold, replaced, hnone, hsmall, IcdFiles.ext_iff, hcontent, eq_comm]
    · simp [hold, hsmall, IcdFiles.ext_iff, hcontent]
  | some previous =>
    obtain ⟨hbefore, hread⟩ := readable_some hprevious
    by_cases hold : (validate override).isSome
    · simp [hold, replaced, hread, IcdFiles.ext_iff, hcontent, hbefore]
    · simp only [hold, Bool.false_eq_true, if_false, IcdFiles.ext_iff, hcontent, hbefore, hsmall,
        Option.some.injEq, false_and, false_or]
      exact ⟨fun h => h.1, fun h => ⟨h, h.symm⟩⟩

end IcdFiles

/-! ### What is behind the calls of the route -/

/-- The values of a configuration that the routes read. -/
def webSnapshot (snapshot : Config.Snapshot) : ConfigSnapshot where
  version := snapshot.version.toNat
  values :=
    { acquisitionDevice := snapshot.values.acquisitionDevice
      rtuDevice := snapshot.values.rtuDevice
      rtuUnitId := snapshot.values.rtuUnitId
      iecEnabled := snapshot.values.iecEnabled
      ftpEnabled := snapshot.values.ftpEnabled
      ftpPort := snapshot.values.ftpPort
      iecIedName := snapshot.values.iecIedName
      timeSyncEnabled := snapshot.values.timeSyncEnabled
      sntpServer := snapshot.values.sntpServer }

/-- The files of the ICD store, the object that keeps the configuration, and its files. -/
structure IcdState where
  disk : Disk
  config : Config.Snapshot
  configDisk : Disk

/-- The calls of the route, where nothing fails on either disk.  Whether the model is accepted
is open, and no other call of the route changes the state. -/
def icdAnswers (store : IcdStore) (file : Bytes) :
    (o : webCalls.Op) → IcdState → webCalls.Answer o → IcdState → Prop
  | .icdStatus, s, (answer : IcdStatus), s' =>
    ∃ d', store.status.Runs steadyDisk s.disk (some answer) d' ∧ s' = { s with disk := d' }
  | .icdReadCurrent, s, (answer : Option Bytes), s' =>
    ∃ d', store.readCurrent.Runs steadyDisk s.disk (some answer) d' ∧ s' = { s with disk := d' }
  | .icdReadPrevious, s, (answer : Option Bytes), s' =>
    ∃ d', store.readPrevious.Runs steadyDisk s.disk (some answer) d' ∧ s' = { s with disk := d' }
  | .icdReplace contents, s, (answer : IcdReplaceResult), s' =>
    ∃ d', (store.replace contents).Runs steadyDisk s.disk (some answer) d' ∧
      s' = { s with disk := d' }
  | .icdRestore, s, (answer : IcdRestoreResult), s' =>
    ∃ d', store.restore.Runs steadyDisk s.disk (some (some answer)) d' ∧ s' = { s with disk := d' }
  | .icdDiscardOverride, s, (answer : Bool), s' =>
    ∃ d', store.discardOverride.Runs steadyDisk s.disk (some answer) d' ∧ s' = { s with disk := d' }
  | .configSnapshot, s, (answer : ConfigSnapshot), s' => answer = webSnapshot s.config ∧ s' = s
  | .setIecIedName name, s, (answer : Bool), s' =>
    ∃ config d', (Config.setIecIedName file s.config name).Runs steadyDisk.inr s.configDisk
      (some (.setIecIedName answer, config)) d' ∧ s' = { s with config := config, configDisk := d' }
  | _, s, _, s' => s' = s

def icdWorld (store : IcdStore) (file : Bytes) : World webCalls IcdState where
  answers := icdAnswers store file
  cut _ _ _ := False
  dies _ := False

/-! ### Saving the name of the IED -/

theorem configWrite_steady (path contents : Bytes) (d : Disk) :
    (Config.writeAtomic path contents).Ensures steadyDisk.inr (fun _ => True)
      (fun complete _ => complete = true) d := by
  refine ⟨fun _ => trivial, fun _ _ => trivial, ?_⟩
  rintro (_ | descriptor) d ⟨hopened, -⟩
  · cases hopened
  refine Prog.ensures_bind (Prog.ensures_mono (fun _ h => h) ?_
    (writeLoop_steady descriptor contents d))
  rintro complete d rfl
  refine ⟨fun _ => trivial, fun _ _ => trivial, ?_⟩
  rintro moded d ⟨rfl : moded = true, -⟩
  refine ⟨fun _ => trivial, fun _ _ => trivial, ?_⟩
  rintro synced d ⟨rfl : synced = true, -⟩
  refine ⟨fun _ => trivial, fun _ _ => trivial, ?_⟩
  rintro closed d ⟨rfl : closed = true, -⟩
  refine ⟨fun _ => trivial, fun _ _ => trivial, ?_⟩
  rintro renamed d ⟨rfl : renamed = true, -⟩
  exact syncDirectory_steady d

/-- The name in the configuration after it has been asked to take another one. -/
def named (old name : Bytes) : Bytes := if Config.validIedName name then name else old

theorem setName_steady (file name : Bytes) (snapshot : Config.Snapshot) (d : Disk) :
    (Config.setIecIedName file snapshot name).Ensures steadyDisk.inr (fun _ => True)
      (fun r _ => r.1 = .setIecIedName (Config.validIedName name) ∧
        r.2.values.iecIedName = named snapshot.values.iecIedName name) d := by
  rw [Config.setIecIedName]
  cases hvalid : Config.validIedName name with
  | false =>
    refine ⟨fun _ => trivial, rfl, ?_⟩
    simp [named, hvalid]
  | true =>
    rw [if_neg (by simp)]
    split_ifs with hsame
    · refine ⟨fun _ => trivial, rfl, ?_⟩
      simp [named, hvalid, hsame]
    · refine Prog.ensures_bind (Prog.ensures_mono (fun _ h => h) ?_ (configWrite_steady _ _ d))
      rintro written d' rfl
      refine ⟨fun _ => trivial, rfl, ?_⟩
      simp [named, hvalid]

/-! ### The route -/

/-- The answers of a request that has been rejected after the file was written. -/
def Rejected (response : Response) : Prop :=
  response = sendError 409 (ascii "ICD model rejected; previous model retained") ∨
    response = sendError 500 (ascii "unable to save uploaded IED name") ∨
      response = sendError 500 (ascii "unable to save restored IED name")

/-- The files and the configured name of the IED are what they were. -/
def LeavesNoTrace (store : IcdStore) (s s' : IcdState) : Prop :=
  store.files s'.disk = store.files s.disk ∧
    s'.config.values.iecIedName = s.config.values.iecIedName

theorem not_rejected_of_status {response : Response} (h : response.status ≠ 409)
    (h' : response.status ≠ 500) : ¬ Rejected response := by
  rintro (rfl | rfl | rfl)
  · exact h rfl
  · exact h' rfl
  · exact h' rfl

section Route

variable {store : IcdStore} {file : Bytes} {s : HttpServer} {before now : IcdState}
  {Q : Response → IcdState → Prop}

/-- What the store's `status` tells of the override. -/
abbrev Active (store : IcdStore) (s : IcdState) (status : IcdStatus) : Prop :=
  status.overrideActive = (readable (s.disk.content store.overridePath)).isSome

theorem status_call {k : IcdStatus → Answering}
    (h : ∀ status, Active store now status →
      (k status).Ensures (icdWorld store file) (fun _ => True) Q now) :
    (Prog.call (I := webCalls) .icdStatus k).Ensures (icdWorld store file) (fun _ => True) Q now := by
  refine ⟨fun _ => trivial, fun _ _ => trivial, ?_⟩
  rintro status now' ⟨d', hrun, rfl⟩
  obtain ⟨rfl, hactive⟩ := (IcdStore.status_steady store now.disk).sound hrun
  exact h status hactive

theorem replace_call {contents : Bytes} {k : IcdReplaceResult → Answering}
    (h : ∀ result d', IcdStore.Replaced (store.files now.disk) contents result (store.files d') →
      (k result).Ensures (icdWorld store file) (fun _ => True) Q { now with disk := d' }) :
    (Prog.call (I := webCalls) (.icdReplace contents) k).Ensures (icdWorld store file)
      (fun _ => True) Q now := by
  refine ⟨fun _ => trivial, fun _ _ => trivial, ?_⟩
  rintro result now' ⟨d', hrun, rfl⟩
  exact h result d' ((IcdStore.replace_steady store contents now.disk).sound hrun)

theorem setName_call {name : Bytes} {k : Bool → Answering}
    (h : ∀ now', store.files now'.disk = store.files now.disk →
      now'.config.values.iecIedName = named now.config.values.iecIedName name →
      (k (Config.validIedName name)).Ensures (icdWorld store file) (fun _ => True) Q now') :
    (Prog.call (I := webCalls) (.setIecIedName name) k).Ensures (icdWorld store file)
      (fun _ => True) Q now := by
  refine ⟨fun _ => trivial, fun _ _ => trivial, ?_⟩
  rintro saved now' ⟨config, d', hrun, rfl⟩
  obtain ⟨hsaved, hname⟩ := (setName_steady file name now.config now.configDisk).sound hrun
  have hresult : saved = Config.validIedName name := Config.ConfigResult.setIecIedName.inj hsaved
  rw [hresult]
  exact h _ rfl hname

/-- Undoing leaves the files that `IcdFiles.undone` says, and not the configuration. -/
theorem undoIcd_ensures {beforeStatus : IcdStatus} {beforeCurrent : Option Bytes}
    {answering : Answering} (hactive : Active store before beforeStatus)
    (hcurrent : beforeCurrent = (readable (before.disk.content store.overridePath)).or
      (readable (before.disk.content store.packagedPath)))
    (h : ∀ d', store.files d' = (store.files before.disk).undone (store.files now.disk) →
      answering.Ensures (icdWorld store file) (fun _ => True) Q { now with disk := d' }) :
    (undoIcd beforeStatus beforeCurrent answering).Ensures (icdWorld store file) (fun _ => True) Q
      now := by
  have hundone : (store.files before.disk).undone (store.files now.disk) =
      match readable (before.disk.content store.overridePath) with
      | none => (store.files now.disk).discarded
      | some contents =>
        if (validate contents).isSome then (store.files now.disk).replaced contents
        else store.files now.disk := rfl
  rw [Active] at hactive
  cases hoverride : readable (before.disk.content store.overridePath) with
  | none =>
    rw [hoverride] at hactive hundone
    unfold undoIcd
    rw [hactive]
    refine ⟨fun _ => trivial, fun _ _ => trivial, ?_⟩
    rintro discarded now' ⟨d', hrun, rfl⟩
    refine h d' ?_
    rw [hundone]
    exact (IcdStore.discardOverride_steady store now.disk).sound hrun
  | some contents =>
    rw [hoverride] at hactive hcurrent hundone
    unfold undoIcd
    rw [hactive, hcurrent]
    refine replace_call fun result d' hreplaced => h d' ?_
    rw [IcdStore.Replaced] at hreplaced
    rw [hundone]
    dsimp only
    split_ifs at hreplaced ⊢
    · exact hreplaced.2
    · exact hreplaced.2

/-- The rest of the route, behind an operation on the file that could be undone if `undoable`
holds. -/
theorem applyIcd_ensures {beforeStatus : IcdStatus} {beforeCurrent : Option Bytes}
    {beforeConfigured : Option ConfigSnapshot} {unsaved : Bytes} {done : String} {undoable : Prop}
    (hactive : Active store before beforeStatus)
    (hcurrent : beforeCurrent = (readable (before.disk.content store.overridePath)).or
      (readable (before.disk.content store.packagedPath)))
    (hconfigured : beforeConfigured =
      if s.hasConfigStore then some (webSnapshot before.config) else none)
    (hvalid : Config.validIedName before.config.values.iecIedName = true)
    (hname : now.config.values.iecIedName = before.config.values.iecIedName)
    (hundoable : (store.files before.disk).undone (store.files now.disk) = store.files before.disk ↔
      undoable) :
    (applyIcd s beforeStatus beforeCurrent beforeConfigured unsaved done).Ensures
      (icdWorld store file) (fun _ => True)
      (fun response after => Rejected response → (LeavesNoTrace store before after ↔ undoable))
      now := by
  subst hconfigured
  have htrace : ∀ {after : IcdState},
      store.files after.disk = (store.files before.disk).undone (store.files now.disk) →
      after.config.values.iecIedName = before.config.values.iecIedName →
      (LeavesNoTrace store before after ↔ undoable) := by
    intro after hfiles hname
    rw [LeavesNoTrace, hfiles, ← hundoable]
    exact and_iff_left hname
  have hquiet : ∀ {body : Bytes} {after : IcdState},
      (Prog.done (sendJson 200 body noStore) : Answering).Ensures (icdWorld store file)
        (fun _ => True)
        (fun response after => Rejected response → (LeavesNoTrace store before after ↔ undoable))
        after :=
    ⟨fun _ => trivial, fun hrejected =>
      absurd hrejected (not_rejected_of_status (by simp [sendJson]) (by simp [sendJson]))⟩
  -- the model is loaded; what is left to do if it is rejected is up to the configuration
  have hreload : ∀ {loading : IcdState} {rejected : Answering},
      store.files loading.disk = store.files now.disk →
      (∀ d', store.files d' = (store.files before.disk).undone (store.files now.disk) →
        rejected.Ensures (icdWorld store file) (fun _ => True)
          (fun response after => Rejected response → (LeavesNoTrace store before after ↔ undoable))
          { loading with disk := d' }) →
      (if s.hasReloadHandler then
        .call .reloadIec61850 fun (reloaded : Bool) =>
          if reloaded then
            .done (sendJson 200 (jsonObject [jsonKey done ++ jsonBool true,
              jsonKey "runtime_reloaded" ++ jsonBool true] ++ ascii "\n") noStore)
          else undoIcd beforeStatus beforeCurrent rejected
      else
        .done (sendJson 200 (jsonObject [jsonKey done ++ jsonBool true,
          jsonKey "runtime_reloaded" ++ jsonBool false] ++ ascii "\n") noStore) :
            Answering).Ensures (icdWorld store file) (fun _ => True)
        (fun response after => Rejected response → (LeavesNoTrace store before after ↔ undoable))
        loading := by
    intro loading rejected hfiles hrejected
    by_cases hhandler : s.hasReloadHandler = true
    · rw [if_pos hhandler]
      refine ⟨fun _ => trivial, fun _ _ => trivial, ?_⟩
      rintro reloaded loading' (rfl : loading' = loading)
      cases reloaded with
      | true => exact hquiet
      | false =>
        refine undoIcd_ensures hactive hcurrent fun d' hundone => hrejected d' ?_
        rwa [hfiles] at hundone
    · rw [if_neg hhandler]
      exact hquiet
  refine status_call fun status _ => ?_
  by_cases hstore : s.hasConfigStore = true
  · refine Eq.mpr (congrArg (fun p => Prog.Ensures _ _ _ p now) (if_pos hstore)) ?_
    refine setName_call fun saving hsaving hsaved => ?_
    cases hiedName : Config.validIedName status.iedName with
    | true =>
      refine hreload hsaving fun d' hundone => ?_
      rw [if_pos hstore]
      refine setName_call fun after hafter hrestored => ⟨fun _ => trivial, fun _ => ?_⟩
      refine htrace (hafter.trans hundone) ?_
      rw [hrestored]
      exact if_pos hvalid
    | false =>
      refine undoIcd_ensures hactive hcurrent fun d' hundone => ⟨fun _ => trivial, fun _ => ?_⟩
      rw [hsaving] at hundone
      refine htrace hundone ?_
      rw [named, hiedName] at hsaved
      exact hsaved.trans hname
  · refine Eq.mpr (congrArg (fun p => Prog.Ensures _ _ _ p now) (if_neg hstore)) ?_
    refine hreload rfl fun d' hundone => ?_
    rw [if_neg hstore]
    exact ⟨fun _ => trivial, fun _ => htrace hundone hname⟩

theorem rememberIcd_ensures {answering : IcdStatus → Option Bytes → Option ConfigSnapshot → Answering}
    (h : ∀ status current, Active store now status →
      current = (readable (now.disk.content store.overridePath)).or
        (readable (now.disk.content store.packagedPath)) →
      (answering status current
        (if s.hasConfigStore then some (webSnapshot now.config) else none)).Ensures
          (icdWorld store file) (fun _ => True) Q now) :
    (rememberIcd s answering).Ensures (icdWorld store file) (fun _ => True) Q now := by
  refine status_call fun status hactive => ⟨fun _ => trivial, fun _ _ => trivial, ?_⟩
  rintro current now' ⟨d', hrun, rfl⟩
  obtain ⟨rfl, hcurrent⟩ := (IcdStore.readCurrent_steady store now.disk).sound hrun
  have hanswering := h status current hactive hcurrent
  dsimp only
  by_cases hstore : s.hasConfigStore = true
  · rw [if_pos hstore] at hanswering ⊢
    refine ⟨fun _ => trivial, fun _ _ => trivial, ?_⟩
    rintro configured now' ⟨rfl, rfl⟩
    exact hanswering
  · rw [if_neg hstore] at hanswering ⊢
    exact hanswering

/-- What is promised of an answer to a request that can be undone if `undoable` holds. -/
abbrev Promise (store : IcdStore) (before : IcdState) (undoable : Prop) (response : Response)
    (after : IcdState) : Prop :=
  Rejected response → (LeavesNoTrace store before after ↔ undoable)

theorem done_promise {undoable : Prop} {response : Response} (h : ¬ Rejected response) :
    (Prog.done response : Answering).Ensures (icdWorld store file) (fun _ => True)
      (Promise store before undoable) now :=
  ⟨fun _ => trivial, fun hrejected => absurd hrejected h⟩

theorem not_rejected_noOverride : ¬ Rejected (sendError 409 (ascii "no uploaded ICD override")) := by
  rintro (h | h | h)
  · exact absurd (congrArg Response.body h) (by decide +kernel)
  · exact absurd (congrArg Response.status h) (by simp [sendError, sendJson])
  · exact absurd (congrArg Response.status h) (by simp [sendError, sendJson])

theorem uploadIcd_ensures (request : ParsedRequest) {contents : Bytes}
    (hcontents : jsonStringField request.body "content" kMaxIcdBytes = some contents)
    (hvalid : Config.validIedName before.config.values.iecIedName = true) :
    (uploadIcd s request).Ensures (icdWorld store file) (fun _ => True)
      (Promise store before ((store.files before.disk).UploadUndoable contents)) before := by
  rw [uploadIcd, hcontents]
  refine rememberIcd_ensures fun status current hactive hcurrent => ?_
  refine replace_call fun result d' hreplaced => ?_
  rw [IcdStore.Replaced] at hreplaced
  split_ifs at hreplaced with hdocument
  · obtain ⟨rfl, hfiles⟩ := hreplaced
    refine applyIcd_ensures hactive hcurrent rfl hvalid rfl ?_
    rw [hfiles]
    exact IcdFiles.upload_undone_iff hdocument
  · obtain ⟨rfl, -⟩ := hreplaced
    exact done_promise (not_rejected_of_status (by decide) (by decide))

theorem restoreIcd_ensures (hvalid : Config.validIedName before.config.values.iecIedName = true) :
    (restoreIcd s).Ensures (icdWorld store file) (fun _ => True)
      (Promise store before (store.files before.disk).RestoreUndoable) before := by
  refine rememberIcd_ensures fun status current hactive hcurrent =>
    ⟨fun _ => trivial, fun _ _ => trivial, ?_⟩
  rintro result now' ⟨d', hrun, rfl⟩
  have hrestored := (IcdStore.restore_steady store before.disk).sound hrun
  simp only [Option.elim_some, IcdStore.Restored] at hrestored
  split_ifs at hrestored with hoverride
  · obtain ⟨hresult, hfiles⟩ := hrestored
    obtain rfl : result = .restored := Option.some.inj hresult
    refine applyIcd_ensures hactive hcurrent rfl hvalid rfl ?_
    rw [hfiles]
    exact IcdFiles.restore_undone_iff hoverride
  · obtain rfl : result = .noOverride := Option.some.inj hrestored.1
    exact done_promise not_rejected_noOverride

/-- When a request to this path can be undone. -/
def Undoable (store : IcdStore) (request : ParsedRequest) (path : Bytes) (before : IcdState) : Prop :=
  if path = ascii "/api/v1/iec61850/icd/restore" then (store.files before.disk).RestoreUndoable
  else
    ∃ contents, jsonStringField request.body "content" kMaxIcdBytes = some contents ∧
      (store.files before.disk).UploadUndoable contents

theorem icdRoute_ensures (request : ParsedRequest) (path : Bytes) (session : Session)
    (hvalid : Config.validIedName before.config.values.iecIedName = true) :
    (icdRoute s request path session).Ensures (icdWorld store file) (fun _ => True)
      (Promise store before (Undoable store request path before)) before := by
  have hstatus : ∀ {now : IcdState} {response : Response}, response.status ≠ 409 →
      response.status ≠ 500 → (Prog.done response : Answering).Ensures (icdWorld store file)
        (fun _ => True) (Promise store before (Undoable store request path before)) now :=
    fun h h' => done_promise (not_rejected_of_status h h')
  have hfile : ∀ {now : IcdState} (contents : Option Bytes),
      (Prog.done (icdFile contents) : Answering).Ensures (icdWorld store file)
        (fun _ => True) (Promise store before (Undoable store request path before)) now := by
    intro now contents
    cases contents with
    | none => exact hstatus (by decide) (by decide)
    | some contents => exact hstatus (by simp [icdFile]) (by simp [icdFile])
  have hmethod : ∀ {now : IcdState} (allowed : String),
      (Prog.done (sendMethodNotAllowed allowed) : Answering).Ensures (icdWorld store file)
        (fun _ => True) (Promise store before (Undoable store request path before)) now :=
    fun _ => hstatus (by simp [sendMethodNotAllowed, sendError, sendJson])
      (by simp [sendMethodNotAllowed, sendError, sendJson])
  refine Prog.ensures_ite (fun _ => ?_) fun _ => ?_
  · exact ⟨fun _ => trivial, fun _ _ => trivial, fun _ _ _ =>
      hstatus (by simp [sendJson]) (by simp [sendJson])⟩
  refine Prog.ensures_ite (fun _ => ?_) fun _ => ?_
  · exact Prog.ensures_ite (fun _ => hmethod _) fun _ =>
      ⟨fun _ => trivial, fun _ _ => trivial, fun contents _ _ => hfile contents⟩
  refine Prog.ensures_ite (fun _ => ?_) fun _ => ?_
  · exact Prog.ensures_ite (fun _ => hmethod _) fun _ =>
      ⟨fun _ => trivial, fun _ _ => trivial, fun contents _ _ => hfile contents⟩
  refine Prog.ensures_ite (fun _ => hmethod _) fun _ => ?_
  refine Prog.ensures_ite (fun _ => ?_) fun _ => ?_
  · exact hstatus (by decide) (by decide)
  refine Prog.ensures_ite (fun _ => hmethod _) fun _ => ?_
  refine Prog.ensures_ite (fun _ => hmethod _) fun _ => ?_
  have hdenied : ∀ {now : IcdState}, (Prog.done passwordIncorrect : Answering).Ensures
      (icdWorld store file) (fun _ => True)
      (Promise store before (Undoable store request path before)) now :=
    hstatus (by decide) (by decide)
  unfold withPassword
  cases jsonStringField request.body "current_password" kMaxPasswordJsonBytes with
  | none => exact hdenied
  | some currentPassword =>
    refine ⟨fun _ => trivial, fun _ _ => trivial, ?_⟩
    intro (verified : Bool) now (hnow : now = before)
    rw [hnow]
    refine Prog.ensures_ite (fun _ => ?_) fun _ => hdenied
    refine Prog.ensures_ite (fun hrestore => ?_) fun hupload => ?_
    · rw [Undoable, if_pos (by simpa using hrestore)]
      exact restoreIcd_ensures hvalid
    · rw [Undoable, if_neg (by simpa using hupload)]
      cases hcontents : jsonStringField request.body "content" kMaxIcdBytes with
      | none =>
        rw [uploadIcd, hcontents]
        exact done_promise (not_rejected_of_status (by decide) (by decide))
      | some contents =>
        refine Prog.ensures_mono (fun _ h => h) (fun response after h hrejected => ?_)
          (uploadIcd_ensures request hcontents hvalid)
        rw [h hrejected]
        simp

theorem icdRoute_promise {request : ParsedRequest} {path : Bytes} {session : Session}
    {response : Response} {after : IcdState}
    (hvalid : Config.validIedName before.config.values.iecIedName = true)
    (hrun : (icdRoute s request path session).Runs (icdWorld store file) before (some response)
      after) : Promise store before (Undoable store request path before) response after :=
  (icdRoute_ensures request path session hvalid).sound hrun

/-! ### Requests that are rejected -/

theorem exists_nameRun (file name : Bytes) (snapshot : Config.Snapshot) (d : Disk) :
    ∃ snapshot' d', (Config.setIecIedName file snapshot name).Runs steadyDisk.inr d
      (some (.setIecIedName (Config.validIedName name), snapshot')) d' := by
  obtain ⟨⟨result, snapshot'⟩, d', hrun⟩ := Prog.exists_runs (W := steadyDisk.inr)
    (fun o d => let ⟨answer, h⟩ := exists_succeeds d (.inr o); ⟨answer, _, h, rfl⟩)
    (Config.setIecIedName file snapshot name) d
  obtain ⟨hresult, -⟩ := (setName_steady file name snapshot d).sound hrun
  obtain rfl : result = _ := hresult
  exact ⟨snapshot', d', hrun⟩

/-- Undoing is always possible, with some outcome. -/
theorem exists_undoRun (beforeStatus : IcdStatus) (beforeCurrent : Option Bytes)
    {answering : Answering} {response : Response}
    (h : ∀ now, ∃ after, answering.Runs (icdWorld store file) now (some response) after)
    (now : IcdState) : ∃ after,
      (undoIcd beforeStatus beforeCurrent answering).Runs (icdWorld store file) now (some response)
        after := by
  unfold undoIcd
  split
  · next contents _ =>
    obtain ⟨result, d', hrun⟩ := exists_steadyRun (store.replace contents) now.disk
    obtain ⟨after, hafter⟩ := h { now with disk := d' }
    exact ⟨after, .call (I := webCalls) ⟨d', hrun, rfl⟩ hafter⟩
  · obtain ⟨result, d', hrun⟩ := exists_steadyRun store.discardOverride now.disk
    obtain ⟨after, hafter⟩ := h { now with disk := d' }
    exact ⟨after, .call (I := webCalls) ⟨d', hrun, rfl⟩ hafter⟩

theorem exists_refusedApply (beforeStatus : IcdStatus) (beforeCurrent : Option Bytes)
    (beforeConfigured : ConfigSnapshot) (unsaved : Bytes) (done : String)
    (hstore : s.hasConfigStore = true) (hhandler : s.hasReloadHandler = true) (now : IcdState) :
    ∃ response after, (response = sendError 409 (ascii "ICD model rejected; previous model retained") ∨
        response = sendError 500 unsaved) ∧
      (applyIcd s beforeStatus beforeCurrent (some beforeConfigured) unsaved done).Runs
        (icdWorld store file) now (some response) after := by
  obtain ⟨status, d₁, hstatus⟩ := exists_steadyRun store.status now.disk
  obtain ⟨snapshot, d₂, hname⟩ := exists_nameRun file status.iedName now.config now.configDisk
  have hdone : ∀ (response : Response) (now : IcdState), ∃ after,
      (Prog.done response : Answering).Runs (icdWorld store file) now (some response) after :=
    fun response now => ⟨now, .done response now⟩
  unfold applyIcd
  cases hvalid : Config.validIedName status.iedName with
  | false =>
    rw [hvalid] at hname
    obtain ⟨after, hafter⟩ := exists_undoRun beforeStatus beforeCurrent (hdone (sendError 500 unsaved))
      { now with disk := d₁, config := snapshot, configDisk := d₂ }
    refine ⟨_, after, .inr rfl, .call (I := webCalls) ⟨d₁, hstatus, rfl⟩ ?_⟩
    simp only [hstore, if_true]
    exact .call (I := webCalls) ⟨snapshot, d₂, hname, rfl⟩ hafter
  | true =>
    rw [hvalid] at hname
    have hrestore : ∀ now : IcdState, ∃ after,
        (Prog.call (I := webCalls) (.setIecIedName beforeConfigured.values.iecIedName) fun _ =>
          .done (sendError 409 (ascii "ICD model rejected; previous model retained"))).Runs
            (icdWorld store file) now
            (some (sendError 409 (ascii "ICD model rejected; previous model retained"))) after := by
      intro now
      obtain ⟨snapshot', d', hback⟩ :=
        exists_nameRun file beforeConfigured.values.iecIedName now.config now.configDisk
      exact ⟨_, .call (I := webCalls) ⟨snapshot', d', hback, rfl⟩ (.done _ _)⟩
    obtain ⟨after, hafter⟩ := exists_undoRun beforeStatus beforeCurrent hrestore
      { now with disk := d₁, config := snapshot, configDisk := d₂ }
    refine ⟨_, after, .inl rfl, .call (I := webCalls) ⟨d₁, hstatus, rfl⟩ ?_⟩
    simp only [hstore, hhandler, if_true]
    refine .call (I := webCalls) ⟨snapshot, d₂, hname, rfl⟩ ?_
    exact .call (I := webCalls) (o := .reloadIec61850) (a := (false : Bool)) rfl hafter

/-- Any upload of a valid document may be rejected. -/
theorem exists_refusedUpload (request : ParsedRequest) {contents : Bytes}
    (hcontents : jsonStringField request.body "content" kMaxIcdBytes = some contents)
    (hvalid : (validate contents).isSome) (hstore : s.hasConfigStore = true)
    (hhandler : s.hasReloadHandler = true) (now : IcdState) :
    ∃ response after, Rejected response ∧
      (uploadIcd s request).Runs (icdWorld store file) now (some response) after := by
  obtain ⟨status, d₁, hstatus⟩ := exists_steadyRun store.status now.disk
  obtain ⟨current, d₂, hcurrent⟩ := exists_steadyRun store.readCurrent d₁
  obtain ⟨result, d₃, hreplace⟩ := exists_steadyRun (store.replace contents) d₂
  have hreplaced := (IcdStore.replace_steady store contents d₂).sound hreplace
  obtain rfl : result = .replaced := by
    simp only [Option.elim_some, IcdStore.Replaced, hvalid, if_true] at hreplaced
    exact hreplaced.1
  obtain ⟨response, after, hresponse, hafter⟩ := @exists_refusedApply store file s
    status current (webSnapshot now.config) (ascii "unable to save uploaded IED name") "updated"
    hstore hhandler { now with disk := d₃ }
  refine ⟨response, after, hresponse.imp_right .inl, ?_⟩
  rw [uploadIcd, hcontents]
  refine .call (I := webCalls) ⟨d₁, hstatus, rfl⟩ (.call (I := webCalls) ⟨d₂, hcurrent, rfl⟩ ?_)
  simp only [hstore, if_true]
  refine .call (I := webCalls) ⟨rfl, rfl⟩ (.call (I := webCalls) ⟨d₃, hreplace, rfl⟩ ?_)
  exact hafter

end Route

/-- A request that is rejected after the file was written leaves no trace exactly where its
operation can be undone. -/
theorem rejection_restores_iff (store : IcdStore) (file : Bytes) (s : HttpServer)
    (request : ParsedRequest) (path : Bytes) (session : Session) (before after : IcdState)
    (response : Response) (hvalid : Config.validIedName before.config.values.iecIedName = true)
    (hrun : (icdRoute s request path session).Runs (icdWorld store file) before (some response) after)
    (hrejected : Rejected response) :
    LeavesNoTrace store before after ↔ Undoable store request path before :=
  icdRoute_promise hvalid hrun hrejected

/-! ### An upload over an override -/

/-- An entry of a data set, by its class, object, attribute and functional constraint. -/
def documentEntry (lnClass doName daName fc : String) : Bytes :=
  ascii "<FCDA ldInst='L' lnClass='" ++ ascii lnClass ++ ascii "' lnInst='1' doName='" ++
    ascii doName ++ ascii "' daName='" ++ ascii daName ++ ascii "' fc='" ++ ascii fc ++ ascii "'/>"

def documentReport (name dataSet : String) : Bytes :=
  ascii "<ReportControl name='" ++ ascii name ++ ascii "' datSet='" ++ ascii dataSet ++ ascii "'/>"

/-- A small document with the approved model. -/
def document : Bytes :=
  ascii "<SCL xmlns='" ++ Iec61850.kSclNamespace ++ ascii "'><IED name='A'><LDevice inst='L'>" ++
    ascii "<DataSet name='DSMeasurements'>" ++ documentEntry "GGIO" "AnIn1" "mag.f" "MX" ++
    documentEntry "GGIO" "AnIn2" "mag.f" "MX" ++ documentEntry "GGIO" "AnIn3" "mag.f" "MX" ++
    documentEntry "GGIO" "AnIn4" "mag.f" "MX" ++ documentEntry "GGIO" "IntIn1" "stVal" "ST" ++
    documentEntry "SPDC" "PaDschAlm" "stVal" "ST" ++ ascii "</DataSet>" ++
    ascii "<DataSet name='DSState'>" ++ documentEntry "GGIO" "Ind1" "stVal" "ST" ++
    ascii "</DataSet>" ++ documentReport "RPMeasurements" "DSMeasurements" ++
    documentReport "RPState" "DSState" ++ ascii "</LDevice></IED></SCL>"

theorem validate_document : (validate document).isSome := by
  decide +kernel

def icdPath : Bytes := ascii "/api/v1/iec61850/icd"

def documentUpload : ParsedRequest where
  method := ascii "PUT"
  target := icdPath
  version := ascii "HTTP/1.1"
  headers := [(ascii "x-csrf-token", ascii "token")]
  body := ascii "\x7b\"content\":\"" ++ (document ++
    0x22 :: ascii ",\"current_password\":\"installed password\"\x7d")

def uploadSession : Session where
  csrfToken := ascii "token"
  remoteAddress := []
  expiresAt := 0

/-- A text without quotes, backslashes and control characters stands in a JSON string as it is. -/
theorem jsonStringBody_plain {text value rest : Bytes} {maxBytes : ℕ}
    (hplain : ∀ c ∈ text, c ≠ 0x22 ∧ c ≠ 0x5C ∧ ¬ c < 0x20)
    (hlength : value.length + text.length ≤ maxBytes) :
    jsonStringBody maxBytes value (text ++ 0x22 :: rest) = some (value ++ text) := by
  induction text generalizing value with
  | nil =>
    rw [List.nil_append, jsonStringBody.eq_def]
    simpa using hlength
  | cons c text ih =>
    obtain ⟨⟨hquote, hescape, hcontrol⟩, htext⟩ := List.forall_mem_cons.mp hplain
    rw [List.length_cons] at hlength
    have hlater := @ih (value ++ [c]) htext
      (by rw [List.length_append, List.length_singleton]; omega)
    rw [List.cons_append, jsonStringBody.eq_def]
    simp only [hquote, hescape, hcontrol, if_false, ne_eq, not_false_eq_true, if_true]
    rw [if_neg (by omega), hlater, List.append_assoc, List.singleton_append]

theorem jsonMember_content (rest : Bytes) :
    jsonMember (ascii "\x7b\"content\":\"" ++ rest) "content" 0x22 = some rest := by
  rfl

theorem jsonStringField_content {text : Bytes} (rest : Bytes) {maxBytes : ℕ}
    (hall : text.all (fun c => c ≠ 0x22 ∧ c ≠ 0x5C ∧ ¬ c < 0x20) = true)
    (hlength : text.length ≤ maxBytes) :
    jsonStringField (ascii "\x7b\"content\":\"" ++ (text ++ 0x22 :: rest)) "content" maxBytes =
      some text := by
  have hplain : ∀ c ∈ text, c ≠ 0x22 ∧ c ≠ 0x5C ∧ ¬ c < 0x20 := by
    intro c hc
    exact of_decide_eq_true (List.all_eq_true.mp hall c hc)
  rw [jsonStringField, jsonMember_content, Option.bind_eq_bind, Option.bind_some,
    jsonStringBody_plain hplain (by simpa using hlength), List.nil_append]

theorem content_documentUpload :
    jsonStringField documentUpload.body "content" kMaxIcdBytes = some document :=
  jsonStringField_content _ (by decide +kernel) (by decide +kernel)

theorem password_documentUpload :
    jsonStringField documentUpload.body "current_password" kMaxPasswordJsonBytes =
      some (ascii "installed password") := by
  decide +kernel

def uploadServer : HttpServer where
  documentRoot := []

def uploadStore : IcdStore := ⟨ascii "UHFPD1.icd", ascii "/etc/uhf-gateway/UHFPD1.icd"⟩

/-- The document is the override already, and there is no previous version. -/
def uploadBefore : IcdState where
  disk := { content := fun path => if path = uploadStore.overridePath then some document else none }
  config := {}
  configDisk := { content := fun _ => none }

theorem exists_refusedRequest : ∃ response after, Rejected response ∧
    (icdRoute uploadServer documentUpload icdPath uploadSession).Runs
      (icdWorld uploadStore (ascii "config.json")) uploadBefore (some response) after := by
  obtain ⟨response, after, hrejected, hrun⟩ := @exists_refusedUpload uploadStore
    (ascii "config.json") uploadServer documentUpload document content_documentUpload
    validate_document rfl rfl uploadBefore
  refine ⟨response, after, hrejected, ?_⟩
  have hput : ¬ (icdPath = ascii "/api/v1/iec61850/icd" ∧ isGet documentUpload = true) := by
    decide +kernel
  have hdownload : icdPath ≠ ascii "/api/v1/iec61850/icd/download" := by decide +kernel
  have hprevious : icdPath ≠ ascii "/api/v1/iec61850/icd/previous/download" := by decide +kernel
  have hrestore : icdPath ≠ ascii "/api/v1/iec61850/icd/restore" := by decide +kernel
  have hcsrf : csrfMatches documentUpload uploadSession = true := by decide +kernel
  have hmethod : documentUpload.method = ascii "PUT" := rfl
  rw [icdRoute, if_neg hput, if_neg hdownload, if_neg hprevious, if_neg (by simp [hmethod]),
    if_neg (by simp [hcsrf]), if_neg (by simp [hrestore]), if_neg (by simp [hmethod])]
  unfold withPassword
  rw [password_documentUpload]
  refine .call (I := webCalls) (o := .verifyPassword _ _) (a := (true : Bool)) rfl ?_
  simp only [hrestore, decide_false, Bool.false_eq_true, if_false, if_true]
  exact hrun

theorem rejection_restores_upload : ∃ response after,
    Rejected response ∧ (LeavesNoTrace uploadStore uploadBefore after ↔
      Undoable uploadStore documentUpload icdPath uploadBefore) := by
  obtain ⟨response, after, hrejected, hrun⟩ := exists_refusedRequest
  exact ⟨response, after, hrejected, rejection_restores_iff uploadStore (ascii "config.json")
    uploadServer documentUpload icdPath uploadSession uploadBefore after response (by decide +kernel)
    hrun hrejected⟩

/-- An upload that is refused leaves the rejected document as the previous version. -/
theorem refused_upload_leaves_trace : ∃ response after, Rejected response ∧
    (icdRoute uploadServer documentUpload icdPath uploadSession).Runs
      (icdWorld uploadStore (ascii "config.json")) uploadBefore (some response) after ∧
    ¬ LeavesNoTrace uploadStore uploadBefore after := by
  obtain ⟨response, after, hrejected, hrun⟩ := exists_refusedRequest
  refine ⟨response, after, hrejected, hrun, ?_⟩
  have hvalid : Config.validIedName uploadBefore.config.values.iecIedName = true := by
    decide +kernel
  have hpromise := icdRoute_promise hvalid hrun
  have hoverride : uploadBefore.disk.content uploadStore.overridePath = some document := by
    simp only [uploadBefore, if_true]
  have hprevious : uploadBefore.disk.content uploadStore.previousPath = none := by
    simp only [uploadBefore, IcdStore.overridePath_ne_previous.symm, if_false]
  rw [hpromise hrejected, Undoable, if_neg (by decide +kernel)]
  rintro ⟨contents, -, hnone | ⟨-, hsome⟩⟩
  · have hsome : (uploadStore.files uploadBefore.disk).override = some document := hoverride
    exact Option.some_ne_none _ (hsome.symm.trans hnone)
  · have hnone : (uploadStore.files uploadBefore.disk).previous = none := hprevious
    exact Option.some_ne_none _ (hsome.symm.trans hnone)

end Uhf.Web
