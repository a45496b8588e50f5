/-
What the Linux backend does to the files it shares with other processes, when
every command, DHCP exchange and file access succeeds.

* `readCurrent_meets`, `applyStage_meets`, `confirm_meets`, `rollback_meets` —
  each operation succeeds on files that fit it, and which files it leaves;
* `applyStage_refused` — an object that believes a transaction of its own to be
  staged refuses the next one, whatever the files say.
-/
import UhfGateway.Network.LinuxBackend

namespace Uhf.Network

open Effects Effects.Prog

/-! ### The files -/

/-- The files shared by all processes. -/
structure Disk where
  journal : Option Transaction
  network : Option FileText
  vendor : Port → Option FileText
  leases : LeaseFile → Option Leases

namespace Disk

def file (d : Disk) : ConfigFile → Option FileText
  | .network => d.network
  | .vendor port => d.vendor port

def setFile (d : Disk) (text : Option FileText) : ConfigFile → Disk
  | .network => { d with network := text }
  | .vendor port => { d with vendor := Function.update d.vendor port text }

def setLeases (d : Disk) (file : LeaseFile) (leases : Option Leases) : Disk :=
  { d with leases := Function.update d.leases file leases }

/-- What `parse_flat_json` makes of the configuration file. -/
def loaded (d : Disk) : Option NetworkConfig :=
  match d.network with
  | some (.network config) => if (validate config).valid then some config else none
  | _ => none

/-- What `parse_vendor_file` makes of the vendor text of an interface. -/
def vendorParsed (name : Bytes) (config : InterfaceConfig) : InterfaceConfig :=
  { name := name
    mode := config.mode
    address := if config.mode = .staticAddress then config.address else []
    prefixLength := config.prefixLength
    gateway := if config.mode = .staticAddress then config.gateway else [] }

/-- `load_vendor`. -/
def loadedVendor (d : Disk) : Option NetworkConfig :=
  match d.vendor .eth0, d.vendor .eth1 with
  | some (.vendor eth0), some (.vendor eth1) =>
    let config : NetworkConfig := ⟨vendorParsed (ascii "eth0") eth0, vendorParsed (ascii "eth1") eth1⟩
    if (validate config).valid then some config else none
  | _, _ => none

/-- The leases in force; a missing file holds none. -/
def currentLeases (d : Disk) : Leases := (d.leases .current).getD Leases.empty

end Disk

/-- The answers of the sub-steps when nothing fails. -/
def smoothAnswers : (o : BackendCall) → Disk → backendCalls.Answer o → Disk → Prop
  | .snapshotFile file, d, r, d' => r = some (d.file file) ∧ d' = d
  | .writeFile file text, d, ok, d' => ok = true ∧ d' = d.setFile (some text) file
  | .restoreFile file snapshot, d, ok, d' => ok = true ∧ d' = d.setFile snapshot file
  | .load, d, r, d' => r = d.loaded ∧ d' = d
  | .networkFileMissing, d, missing, d' => missing = d.network.isNone ∧ d' = d
  | .vendorFilesExist, d, r, d' =>
    r = some ((d.vendor .eth0).isSome, (d.vendor .eth1).isSome) ∧ d' = d
  | .loadVendor, d, r, d' => r = d.loadedVendor ∧ d' = d
  | .loadLeases file, d, r, d' => r = (d.leases file).elim .none .valid ∧ d' = d
  | .writeLeases file leases, d, ok, d' => ok = true ∧ d' = d.setLeases file (some leases)
  | .clearLeases file, d, ok, d' => ok = true ∧ d' = d.setLeases file none
  | .acquire _, d, r, d' => (∃ lease, r = some lease ∧ validateLease lease = true) ∧ d' = d
  | .currentLease _, d, r, d' => (∀ lease, r = some lease → validateLease lease = true) ∧ d' = d
  | .prepareDirectory, d, ok, d' | .start _ _, d, ok, d' | .stop _ _, d, ok, d'
  | .release _ _, d, ok, d' | .ip _ _, d, ok, d' => ok = true ∧ d' = d

/-- The backend's surroundings when nothing fails. -/
def smoothBackend : World backendCalls Disk where
  answers := smoothAnswers
  cut _ _ _ := False
  dies _ := False

/-- The program ends in a result and files that satisfy `Q`. -/
abbrev Meets {α : Type} (Q : α → Disk → Prop) (p : BackendProg α) (d : Disk) : Prop :=
  p.Ensures smoothBackend (fun _ => True) Q d

/-- Every sub-step can succeed. -/
theorem smoothAnswers_total (o : BackendCall) (d : Disk) : ∃ a d', smoothAnswers o d a d' := by
  cases o with
  | acquire config =>
    exact ⟨some { address := ascii "10.0.0.2", prefixLength := 24 }, d, ⟨_, rfl, by decide⟩, rfl⟩
  | currentLease config => exact ⟨none, d, nofun, rfl⟩
  | _ => exact ⟨_, _, rfl, rfl⟩

/-- A program can end in what it is bound to end in. -/
theorem Meets.exists_runs {α : Type} {Q : α → Disk → Prop} {p : BackendProg α} {d : Disk}
    (h : Meets Q p d) : ∃ a d', Q a d' ∧ p.Runs smoothBackend d (some a) d' := by
  obtain ⟨a, d', hr⟩ := Prog.exists_runs (W := smoothBackend) smoothAnswers_total p d
  exact ⟨a, d', h.sound hr, hr⟩

/-! ### One sub-step at a time -/

section SubSteps

open LinuxBackend

variable {α : Type} {Q : α → Disk → Prop} {d : Disk} {b : LinuxBackend}

theorem meets_sub {o : BackendCall} {k : backendCalls.Answer o → BackendProg α}
    (h : ∀ a d', smoothAnswers o d a d' → Meets Q (k a) d') : Meets Q (sub o k) d :=
  ⟨fun hd => hd.elim, fun _ hc => hc.elim, h⟩

theorem meets_done {a : α} (h : Q a d) : Meets Q (.done a) d := ⟨fun hd => hd.elim, h⟩

/-- The branch after a sub-step that succeeded. -/
theorem meets_succeeded {p p' : BackendProg α} (h : Meets Q p' d) :
    Meets Q (if (!true) = true then p else p') d := h

/-- A configuration every file format can hold: it is valid and either interface
has a netmask, as everything that was parsed from one of them is. -/
def Storable (config : NetworkConfig) : Prop :=
  (validate config).valid = true ∧ hasVendorText config.eth0 = true ∧ hasVendorText config.eth1 = true

theorem storable_default : Storable {} := ⟨validate_default, by decide, by decide⟩

/-- The object was given a DHCP client, and vendor files for both interfaces or
for none. -/
structure Equipped (b : LinuxBackend) : Prop where
  client : b.hasDhcpClient = true
  vendor : b.vendorEth0 = b.vendorEth1

theorem loadLeases_meets {file : LeaseFile} {k : Option Leases → BackendProg α}
    (h : Meets Q (k (some ((d.leases file).getD Leases.empty))) d) :
    Meets Q (loadLeases file k) d := by
  refine meets_sub ?_
  rintro a d' ⟨rfl, rfl⟩
  cases hl : d'.leases file with
  | none => simpa [hl] using h
  | some leases => simpa [hl] using h

theorem saveLeases_meets {file : LeaseFile} {leases : Leases} {k : Bool → BackendProg α}
    (hv : leases.Valid = true) (h : Meets Q (k true) (d.setLeases file (some leases))) :
    Meets Q (saveLeases file leases k) d := by
  rw [saveLeases, hv]
  refine meets_sub ?_
  rintro a d' ⟨rfl, rfl⟩
  exact h

theorem clearLeases_meets {file : LeaseFile} {k : Bool → BackendProg α}
    (h : Meets Q (k true) (d.setLeases file none)) : Meets Q (sub (.clearLeases file) k) d := by
  refine meets_sub ?_
  rintro a d' ⟨rfl, rfl⟩
  exact h

theorem ipWhile_meets {k : Bool → BackendProg α} (h : Meets Q (k true) d)
    (commands : List (List Bytes)) : Meets Q (ipWhile commands k) d := by
  induction commands with
  | nil => exact h
  | cons c cs ih =>
    refine meets_sub ?_
    rintro a d' ⟨rfl, rfl⟩
    exact ih

theorem ipEach_meets {allowMissing : Bool} {k : Bool → BackendProg α} (h : Meets Q (k true) d)
    (commands : List (List Bytes)) : Meets Q (ipEach allowMissing commands k) d := by
  induction commands generalizing k with
  | nil => exact h
  | cons c cs ih =>
    refine meets_sub ?_
    rintro a d' ⟨rfl, rfl⟩
    exact ih h

theorem applyAddressAdditions_meets {c : Change} {k : Bool → BackendProg α}
    (h : Meets Q (k true) d) : Meets Q (applyAddressAdditions c k) d := by
  refine ipWhile_meets (meets_succeeded ?_) _
  refine ipWhile_meets (meets_succeeded ?_) _
  exact h

theorem releaseEach_meets {config : NetworkConfig} {leases : Leases} {k : Bool → BackendProg α}
    (h : Meets Q (k true) d) (ports : List Port) :
    Meets Q (releaseEach config leases ports k) d := by
  induction ports generalizing k with
  | nil => exact h
  | cons port ports ih =>
    rw [releaseEach]
    cases leases port with
    | none => exact ih h
    | some lease =>
      refine meets_sub ?_
      rintro a d' ⟨rfl, rfl⟩
      exact ih h

theorem releaseLeases_meets {config : NetworkConfig} {leases : Leases} {k : Bool → BackendProg α}
    (h : Meets Q (k true) d) : Meets Q (b.releaseLeases config leases k) d := by
  rw [releaseLeases]
  split
  · exact h
  · exact releaseEach_meets h _

theorem cover_iff {leases : Leases} {config : NetworkConfig} :
    leases.Cover config = true ↔
      ∀ port, (config.port port).mode = .dhcp → (leases port).isSome = true := by
  constructor
  · intro h port hm
    have hp := (List.all_eq_true.mp h) port (by cases port <;> simp [Port.all])
    simpa [hm] using hp
  · intro h
    refine List.all_eq_true.mpr fun port _ => ?_
    by_cases hm : (config.port port).mode = .dhcp
    · simp [h port hm]
    · simp [hm]

theorem valid_iff {leases : Leases} :
    leases.Valid = true ↔ ∀ port lease, leases port = some lease → validateLease lease = true := by
  constructor
  · intro h port lease hl
    have hp := (List.all_eq_true.mp h) port (by cases port <;> simp [Port.all])
    simpa [hl] using hp
  · intro h
    refine List.all_eq_true.mpr fun port _ => ?_
    cases hl : leases port with
    | none => rfl
    | some lease => exact h port lease hl

/-- Acquiring leaves valid leases, for every interface asked for that is in DHCP
mode, on top of those there were. -/
theorem acquireEach_meets {config : NetworkConfig} {k : Option Leases → BackendProg α}
    (hb : b.hasDhcpClient = true) (ports : List Port) (leases : Leases) (hv : leases.Valid = true)
    (h : ∀ leases' : Leases, leases'.Valid = true →
      (∀ port, (leases port).isSome = true → (leases' port).isSome = true) →
      (∀ port ∈ ports, (config.port port).mode = .dhcp → (leases' port).isSome = true) →
      Meets Q (k (some leases')) d) :
    Meets Q (acquireEach b config ports leases k) d := by
  induction ports generalizing leases with
  | nil => exact h leases hv (fun _ hp => hp) (by simp)
  | cons port ports ih =>
    rw [acquireEach]
    by_cases hm : (config.port port).mode = .dhcp
    · -- a lease is asked for, and a smooth client brings a valid one
      rw [if_neg (not_not.mpr hm), hb]
      refine meets_sub ?_
      rintro a d' ⟨⟨lease, rfl, hlease⟩, rfl⟩
      simp only [hlease, Bool.not_true]
      refine ih _ ?_ ?_
      · rw [valid_iff] at hv ⊢
        intro p l hl
        by_cases hp : p = port
        · subst hp
          rw [Function.update_self] at hl
          cases hl
          exact hlease
        · rw [Function.update_of_ne hp] at hl
          exact hv p l hl
      · intro leases' hv' hkeep hnew
        refine h leases' hv' ?_ ?_
        · intro p hp
          refine hkeep p ?_
          by_cases hpp : p = port
          · rw [hpp, Function.update_self]
            rfl
          · rw [Function.update_of_ne hpp]
            exact hp
        · intro p hp hmode
          rcases List.mem_cons.mp hp with rfl | hp
          · exact hkeep p (by rw [Function.update_self]; rfl)
          · exact hnew p hp hmode
    · -- a static port keeps whatever lease it had
      rw [if_pos hm]
      refine ih leases hv ?_
      intro leases' hv' hkeep hnew
      refine h leases' hv' hkeep ?_
      intro p hp hmode
      rcases List.mem_cons.mp hp with rfl | hp
      · exact absurd hmode hm
      · exact hnew p hp hmode

theorem stopEach_meets {config : NetworkConfig} {leases : Leases}
    {k : Option (List Port) → BackendProg α} (hb : b.hasDhcpClient = true)
    (hc : leases.Cover config = true) (h : ∀ stopped, Meets Q (k (some stopped)) d)
    (ports stopped : List Port) : Meets Q (stopEach b config leases ports stopped k) d := by
  induction ports generalizing stopped with
  | nil => exact h stopped
  | cons port ports ih =>
    rw [stopEach]
    by_cases hm : (config.port port).mode = .dhcp
    · rw [if_neg (not_not.mpr hm), hb]
      obtain ⟨lease, hl⟩ := Option.isSome_iff_exists.mp (cover_iff.mp hc port hm)
      rw [hl]
      refine meets_sub ?_
      rintro a d' ⟨rfl, rfl⟩
      exact ih _
    · rw [if_pos hm]
      exact ih _

theorem saveVendor_meets {config : NetworkConfig} {k : Bool → BackendProg α} (hb : Equipped b)
    (hs : Storable config) (h : ∀ vendor, Meets Q (k true) { d with vendor := vendor }) :
    Meets Q (b.saveVendor config k) d := by
  rw [saveVendor, hb.vendor]
  cases b.vendorEth1 with
  | false => exact h d.vendor
  | true =>
    refine meets_sub ?_
    rintro a d₁ ⟨rfl, rfl⟩
    refine meets_sub ?_
    rintro a d₂ ⟨rfl, rfl⟩
    simp only [writeVendor, hs.2.1, hs.2.2, Bool.not_true, Bool.or_self]
    refine meets_sub ?_
    rintro a d₃ ⟨rfl, rfl⟩
    refine meets_sub ?_
    rintro a d₄ ⟨rfl, rfl⟩
    exact h _

theorem save_meets {config : NetworkConfig} {k : Bool → BackendProg α} (hb : Equipped b)
    (hs : Storable config)
    (h : ∀ vendor, Meets Q (k true)
      { d with network := some (.network config), vendor := vendor }) :
    Meets Q (b.save config k) d := by
  refine meets_sub ?_
  rintro a d₁ ⟨rfl, rfl⟩
  simp only [hs.1, Bool.not_true]
  refine meets_sub ?_
  rintro a d₂ ⟨rfl, rfl⟩
  refine meets_sub ?_
  rintro a d₃ ⟨rfl, rfl⟩
  exact saveVendor_meets hb hs h

end SubSteps

/-! ### The operations -/

section Operations

open LinuxBackend

variable {d : Disk} {b : LinuxBackend}

/-- The configuration file holds `config` and the lease file what it needs. -/
structure Holds (d : Disk) (config : NetworkConfig) : Prop where
  network : d.network = some (.network config)
  storable : Storable config
  cover : d.currentLeases.Cover config = true

/-- All lease files hold valid leases. -/
def LeasesValid (d : Disk) : Prop := ∀ file leases, d.leases file = some leases → leases.Valid = true

theorem LeasesValid.current (h : LeasesValid d) : d.currentLeases.Valid = true := by
  rw [Disk.currentLeases]
  cases hl : d.leases .current with
  | none => rfl
  | some leases => exact h _ _ hl

theorem LeasesValid.set (h : LeasesValid d) {file : LeaseFile} {leases : Option Leases}
    (hv : ∀ ls, leases = some ls → ls.Valid = true) : LeasesValid (d.setLeases file leases) := by
  intro f ls hls
  by_cases hf : f = file
  · subst hf
    exact hv ls (by simpa [Disk.setLeases] using hls)
  · exact h f ls (by simpa [Disk.setLeases, Function.update_of_ne hf] using hls)

/-- The files are those of a settled configuration, or of a first start. -/
def Settles (d : Disk) : Prop :=
  (∃ config, Holds d config) ∨ (d.network = none ∧ ∀ port, d.vendor port = none)

theorem leasesPresent_meets {α : Type} {Q : α → Disk → Prop} {config : NetworkConfig}
    {k : Bool → BackendProg α} (hc : d.currentLeases.Cover config = true)
    (h : Meets Q (k true) d) : Meets Q (leasesPresent config k) d := by
  rw [leasesPresent]
  split
  · refine loadLeases_meets ?_
    rw [Disk.currentLeases] at hc
    simpa only [hc] using h
  · exact h

theorem readCurrent_meets (hb : Equipped b) (hs : Settles d) :
    Meets (fun r d' => ∃ config, r = some config ∧ Holds d' config ∧
      d'.journal = d.journal ∧ d'.leases = d.leases) b.readCurrent d := by
  have hsave : ∀ config, Storable config → d.currentLeases.Cover config = true →
      Meets (fun r d' => ∃ config, r = some config ∧ Holds d' config ∧
        d'.journal = d.journal ∧ d'.leases = d.leases) (b.readAfterSave config) d := by
    intro config hst hc
    refine save_meets hb hst fun vendor => meets_done ?_
    exact ⟨config, rfl, ⟨rfl, hst, hc⟩, rfl, rfl⟩
  refine meets_sub ?_
  rintro a d' ⟨rfl, rfl⟩
  rcases hs with ⟨config, hh⟩ | ⟨hnone, hvendor⟩
  · -- a stored configuration; the vendor file may still need to be brought up to date
    have hload : d'.loaded = some config := by
      rw [Disk.loaded, hh.network]
      simp only [hh.storable.1, if_true]
    rw [hload]
    refine leasesPresent_meets hh.cover ?_
    have hdone : Meets (fun r d'' => ∃ config, r = some config ∧ Holds d'' config ∧
        d''.journal = d'.journal ∧ d''.leases = d'.leases)
        (.done (some config)) d' := meets_done ⟨config, rfl, hh, rfl, rfl⟩
    simp only [Bool.not_true, Bool.false_eq_true, if_false, hb.vendor, Bool.or_self]
    split
    · rw [if_neg (by simpa using ‹b.vendorEth1 = true›)]
      refine meets_sub ?_
      rintro a d₁ ⟨rfl, rfl⟩
      dsimp only
      split
      · exact hsave config hh.storable hh.cover
      · exact hdone
    · exact hdone
  · -- the first start: the defaults are saved and returned
    have hload : d'.loaded = none := by rw [Disk.loaded, hnone]
    rw [hload]
    refine meets_sub ?_
    rintro a d₁ ⟨rfl, rfl⟩
    have hdefault := hsave {} storable_default rfl
    simp only [hnone, Option.isNone_none, Bool.not_true, Bool.false_eq_true, if_false, readUnsaved,
      hb.vendor, Bool.or_self]
    split
    · rw [if_neg (by simpa using ‹b.vendorEth1 = true›)]
      refine meets_sub ?_
      rintro a d₂ ⟨rfl, rfl⟩
      simpa [hvendor] using hdefault
    · exact hdefault

/-- The files of a staged transaction, and the leases its end will need. -/
structure StagedFiles (d : Disk) (previous candidate : NetworkConfig) : Prop where
  held : Holds d previous
  storable : Storable candidate
  stagedLeases : ∃ leases, d.leases .staged = some leases ∧ leases.Cover candidate = true
  previousLeases : ∃ leases, d.leases .previous = some leases ∧ leases.Cover previous = true

theorem applyStage_meets {previous candidate : NetworkConfig} (hb : Equipped b)
    (hstaged : b.staged = false) (hp : Holds d previous) (hc : Storable candidate)
    (hv : LeasesValid d) :
    Meets (fun r d' => r = (true, { b with
        staged := true, stagedPrevious := previous, stagedCandidate := candidate }) ∧
      StagedFiles d' previous candidate ∧ LeasesValid d' ∧ d'.journal = d.journal)
      (b.applyStage previous candidate) d := by
  rw [applyStage]
  simp only [hstaged, hp.storable.1, hc.1, Bool.not_true, Bool.or_self, Bool.false_eq_true, if_false]
  refine loadLeases_meets ?_
  have hcover : ((d.leases .current).getD Leases.empty).Cover previous = true := hp.cover
  simp only [hcover, Bool.not_true, Bool.false_eq_true, if_false]
  -- the current leases are set aside before new ones are asked for
  refine clearLeases_meets (meets_succeeded ?_)
  refine saveLeases_meets hv.current (meets_succeeded ?_)
  refine acquireEach_meets hb.client _ _ rfl ?_
  intro leases hvalid _ hnew
  refine saveLeases_meets hvalid (meets_succeeded ?_)
  refine applyAddressAdditions_meets (meets_succeeded (meets_done ⟨rfl, ?_, ?_, rfl⟩))
  · refine ⟨⟨hp.network, hp.storable, ?_⟩, hc, ⟨leases, ?_, ?_⟩, ⟨d.currentLeases, ?_, hp.cover⟩⟩
    · simpa [Disk.currentLeases, Disk.setLeases] using hp.cover
    · simp [Disk.setLeases]
    · exact cover_iff.mpr fun port hm => hnew port (by cases port <;> simp [Port.all]) hm
    · simp [Disk.setLeases, Disk.currentLeases]
  · refine LeasesValid.set (LeasesValid.set (LeasesValid.set hv ?_) ?_) ?_
    · simp
    · rintro ls ⟨⟩
      exact hv.current
    · rintro ls ⟨⟩
      exact hvalid

/-- A transaction of its own bars every other: nothing is read or written. -/
theorem applyStage_refused {previous candidate : NetworkConfig} (hstaged : b.staged = true) :
    b.applyStage previous candidate = .done (false, b) := by
  rw [applyStage, hstaged]
  rfl

/-- The object staged nothing, or just this transaction. -/
def Own (b : LinuxBackend) (previous candidate : NetworkConfig) : Prop :=
  b.staged = true → b.stagedPrevious = previous ∧ b.stagedCandidate = candidate

theorem Own.not_foreign {previous candidate : NetworkConfig} (h : Own b previous candidate) :
    b.foreign previous candidate = false := by
  rw [foreign]
  cases hs : b.staged with
  | false => rfl
  | true =>
    obtain ⟨hp, hc⟩ := h hs
    simp [hp, hc]

theorem confirm_meets {previous candidate : NetworkConfig} (hb : Equipped b)
    (hown : Own b previous candidate) (hf : StagedFiles d previous candidate)
    (hv : LeasesValid d) :
    Meets (fun r d' => r = (true, { b with staged := false }) ∧ Holds d' candidate ∧
      LeasesValid d' ∧ d'.journal = d.journal) (b.confirm previous candidate) d := by
  obtain ⟨staged, hstaged, hcover⟩ := hf.stagedLeases
  rw [confirm]
  simp only [hf.held.storable.1, hf.storable.1, hown.not_foreign, Bool.not_true, Bool.or_self,
    Bool.false_eq_true, if_false]
  refine loadLeases_meets ?_
  refine loadLeases_meets ?_
  have hprev : ((d.leases .current).getD Leases.empty).Cover previous = true := hf.held.cover
  simp only [hstaged, Option.getD_some, hcover, hprev, Bool.not_true, Bool.or_self,
    Bool.false_eq_true, if_false]
  -- clients that stop or not, the confirmation goes on
  refine stopEach_meets hb.client hprev (fun stopped => ?_) _ _
  refine ipEach_meets (meets_succeeded ?_) _
  refine save_meets hb hf.storable fun vendor => meets_succeeded ?_
  have hvalid := hv _ _ hstaged
  refine saveLeases_meets hvalid (meets_succeeded ?_)
  refine clearLeases_meets (meets_succeeded (meets_done ⟨rfl, ⟨rfl, hf.storable, ?_⟩, ?_, rfl⟩))
  · simpa [Disk.currentLeases, Disk.setLeases] using hcover
  · refine LeasesValid.set (LeasesValid.set hv ?_) ?_
    · rintro ls ⟨⟩
      exact hvalid
    · simp

theorem rollback_meets {previous candidate : NetworkConfig} (hb : Equipped b)
    (hown : Own b previous candidate) (hf : StagedFiles d previous candidate)
    (hv : LeasesValid d) :
    Meets (fun r d' => r = (true, { b with staged := false }) ∧ Holds d' previous ∧
      LeasesValid d' ∧ d'.journal = d.journal) (b.rollback previous candidate) d := by
  obtain ⟨staged, hstaged, hcover⟩ := hf.stagedLeases
  obtain ⟨backup, hbackup, hprev⟩ := hf.previousLeases
  rw [rollback]
  simp only [hf.held.storable.1, hf.storable.1, hown.not_foreign, Bool.not_true, Bool.or_self,
    Bool.false_eq_true, if_false]
  refine loadLeases_meets ?_
  refine meets_sub ?_
  rintro a d₁ ⟨rfl, rfl⟩
  simp only [hbackup, Option.elim_some]
  refine meets_sub ?_
  rintro a d₂ ⟨rfl, rfl⟩
  simp only [hstaged, Option.elim_some, hcover, Bool.not_true, Bool.false_eq_true, if_false]
  -- the files first: the addresses are taken down when they are back in place
  refine save_meets hb hf.held.storable fun vendor => meets_succeeded ?_
  have hvalid := hv _ _ hbackup
  refine saveLeases_meets hvalid (meets_succeeded ?_)
  refine ipEach_meets ?_ _
  refine releaseLeases_meets ?_
  simp only [Bool.not_true, Bool.or_self, Bool.false_eq_true, if_false]
  refine clearLeases_meets (meets_succeeded ?_)
  refine clearLeases_meets (meets_succeeded
    (meets_done ⟨rfl, ⟨rfl, hf.held.storable, ?_⟩, ?_, rfl⟩))
  · simpa [Disk.currentLeases, Disk.setLeases] using hprev
  · refine LeasesValid.set (LeasesValid.set (LeasesValid.set hv ?_) ?_) ?_
    · rintro ls ⟨⟩
      exact hvalid
    · simp
    · simp

end Operations

end Uhf.Network
