/-
Maintenance commands of the privileged service (`platform/privileged/maintenance`).

The time service is configured by a file of its own, which takes the place of the old one
before the service is restarted.  The server's name in it comes from a request, so it is
checked again here, and the name can neither end the line nor begin another setting.

* `validSntpServer_eq` — this check and that of the configuration are the same;
* `sntpConfig_lines` — the lines of the file for a name that passes it;
* `configureSntp_safe` — whatever fails and wherever the process dies, the file is as it was
  or complete, and the time service is not restarted before it is.
-/
import UhfGateway.Config.ConfigStore
import UhfGateway.Effects.Layer
import UhfGateway.Privileged.Messages

namespace Uhf.Privileged

open Effects Posix Posix.Disk Storage
open Config (Written Writes Replaces not_replaces_snoc syncDirectory writes_syncDirectory)

/-! ### Requests -/

def validSntpServer (server : Bytes) : Bool :=
  if server.isEmpty || 253 < server.length || server.head? = some '.'.toUInt8 ||
      server.getLast? = some '.'.toUInt8 then false
  else Config.sntpServerChars 0 server

structure LocalTime where
  year : ℕ
  month : ℕ
  day : ℕ
  hour : ℕ
  minute : ℕ
  second : ℕ
  deriving DecidableEq, Repr

def parseDigits (value : Bytes) (offset count : ℕ) : Option ℕ :=
  ((value.drop offset).take count).foldlM
    (fun result c => if c < '0'.toUInt8 ∨ '9'.toUInt8 < c then none
      else some (result * 10 + (c.toNat - 48))) 0

/-- The time in the text, before the time zone is asked. -/
def localTimeText (value : Bytes) : Option LocalTime :=
  if value.length ≠ 16 ∧ value.length ≠ 19 then none
  else if value.getD 4 0 ≠ '-'.toUInt8 ∨ value.getD 7 0 ≠ '-'.toUInt8 ∨
      value.getD 10 0 ≠ 'T'.toUInt8 ∨ value.getD 13 0 ≠ ':'.toUInt8 then none
  else if value.length = 19 ∧ value.getD 16 0 ≠ ':'.toUInt8 then none
  else
    (parseDigits value 0 4).bind fun year =>
    (parseDigits value 5 2).bind fun month =>
    (parseDigits value 8 2).bind fun day =>
    (parseDigits value 11 2).bind fun hour =>
    (parseDigits value 14 2).bind fun minute =>
    (if value.length = 19 then parseDigits value 17 2 else some 0).bind fun second =>
    if year < 1970 ∨ 2099 < year ∨ month < 1 ∨ 12 < month ∨ day < 1 ∨ 31 < day ∨ 23 < hour ∨
        59 < minute ∨ 59 < second then none
    else some ⟨year, month, day, hour, minute, second⟩

/-- `mktime` of the C library: the time as it normalises it, and the time since the epoch. -/
abbrev Mktime := LocalTime → Option (LocalTime × ℤ)

/-- `parse_local_time`; a time that the time zone leaves out is refused. -/
def parseLocalTime (mktime : Mktime) (value : Bytes) : Option ℤ :=
  (localTimeText value).bind fun text =>
  (mktime text).bind fun result =>
  if result.2 ≠ -1 ∧ result.1 = text then some result.2 else none

def validSystemTime (mktime : Mktime) (localTime : Bytes) : Bool :=
  (parseLocalTime mktime localTime).isSome

/-! ### ExecMaintenanceRunner -/

inductive CommandCall
  /-- `run_fixed`: whether the command has exited with zero. -/
  | runFixed (arguments : List Bytes)
  | clockSettime (epoch : ℤ)
  deriving DecidableEq

@[reducible] def commandCalls : Interface where
  Op := CommandCall
  Answer _ := Bool

abbrev maintenanceCalls := Interface.sum commandCalls fileCalls

abbrev MaintenanceProg := Prog maintenanceCalls Bool

abbrev command (c : CommandCall) (k : Bool → MaintenanceProg) : MaintenanceProg :=
  Prog.call (I := maintenanceCalls) (.inl c) k

def kTimeSyncConfig : Bytes :=
  ascii "/etc/systemd/timesyncd.conf.d/90-uhf-gateway.conf"

def sntpConfig (server : Bytes) : Bytes :=
  ascii "# Managed by uhf-gatewayd.\n[Time]\nNTP=" ++ server ++ ascii "\n"

/-- What is done to the new file before it is closed; each step only if those before it have
succeeded. -/
def fillSntpConfig (descriptor : ℕ) (contents : Bytes) : Prog fileCalls Bool :=
  writeLoop descriptor contents >>= fun complete =>
    if !complete then .done false
    else .call (I := fileCalls) (.fchmod descriptor) fun (moded : Bool) =>
      if !moded then .done false
      else .call (I := fileCalls) (.fsync descriptor) fun (synced : Bool) => .done synced

/-- Close the new file and put it in the place of the old one. -/
def finishSntpConfig (descriptor : ℕ) (success : Bool) : Prog fileCalls Bool :=
  .call (I := fileCalls) (.close descriptor) fun (closed : Bool) =>
    if !(success && closed) then discard (kTimeSyncConfig ++ kTemporary)
    else
      .call (I := fileCalls) (.rename (kTimeSyncConfig ++ kTemporary) kTimeSyncConfig)
        fun (renamed : Bool) =>
          if !renamed then discard (kTimeSyncConfig ++ kTemporary) else syncDirectory

def writeSntpConfig (server : Bytes) : Prog fileCalls Bool :=
  .call (I := fileCalls) .createDirectories fun (made : Bool) =>
    if !made then .done false
    else .call (I := fileCalls) .isDirectory fun (directory : Bool) =>
      if !directory then .done false
      else .call (I := fileCalls) (.openTruncated (kTimeSyncConfig ++ kTemporary))
        fun (opened : Option ℕ) =>
          match opened with
          | none => .done false
          | some descriptor =>
            fillSntpConfig descriptor (sntpConfig server) >>= finishSntpConfig descriptor

namespace ExecMaintenanceRunner

def restartService : MaintenanceProg :=
  command (.runFixed [ascii "/usr/bin/systemctl", ascii "restart", ascii "uhf-gateway.service"])
    .done

def reboot : MaintenanceProg :=
  command (.runFixed [ascii "/usr/bin/systemctl", ascii "--no-block", ascii "reboot"]) .done

def restartTimeSync : CommandCall :=
  .runFixed [ascii "/usr/bin/systemctl", ascii "restart", ascii "systemd-timesyncd.service"]

def enableNtp : CommandCall :=
  .runFixed [ascii "/usr/bin/timedatectl", ascii "set-ntp", ascii "true"]

def configureSntp (server : Bytes) : MaintenanceProg :=
  if !validSntpServer server then .done false
  else
    (writeSntpConfig server).inr >>= fun written =>
    if !written then .done false
    else
      command restartTimeSync fun restarted =>
      if !restarted then .done false else command enableNtp .done

def disableSntp : MaintenanceProg :=
  command (.runFixed [ascii "/usr/bin/timedatectl", ascii "set-ntp", ascii "false"]) .done

def setSystemTime (mktime : Mktime) (localTime : Bytes) : MaintenanceProg :=
  match parseLocalTime mktime localTime with
  | none => .done false
  | some epoch => disableSntp >>= fun _ => command (.clockSettime epoch) .done

end ExecMaintenanceRunner

/-! ### The name of a server -/

theorem sntpServerChars_mem {previous : UInt8} {text : Bytes}
    (h : Config.sntpServerChars previous text = true) {c : UInt8} (hc : c ∈ text) :
    Network.isAlnum c = true ∨ c = '.'.toUInt8 ∨ c = '-'.toUInt8 := by
  induction text generalizing previous with
  | nil => cases hc
  | cons d text ih =>
    rw [Config.sntpServerChars] at h
    by_cases hd : (!(Network.isAlnum d || d = '.'.toUInt8 || d = '-'.toUInt8)) = true
    · rw [if_pos hd] at h
      cases h
    · rw [if_neg hd] at h
      rcases List.mem_cons.mp hc with rfl | hc
      · simp only [Bool.not_eq_true', Bool.not_eq_false, Bool.or_eq_true, decide_eq_true_eq,
          or_assoc] at hd
        exact hd
      · split at h
        · cases h
        · exact ih h hc

/-- Nothing below the digits but the dot and the hyphen, and no delete. -/
theorem sntpServerChars_printable {previous : UInt8} {text : Bytes}
    (h : Config.sntpServerChars previous text = true) {c : UInt8} (hc : c ∈ text) :
    ¬ c < 0x20 ∧ c ≠ 0x7F := by
  rcases sntpServerChars_mem h hc with halnum | rfl | rfl
  · simp only [Network.isAlnum, Bool.or_eq_true, Bool.and_eq_true, decide_eq_true_eq,
      UInt8.le_iff_toNat_le, UInt8.reduceToNat] at halnum
    rw [UInt8.lt_iff_toNat_lt, Ne, ← UInt8.toNat_inj]
    simp only [UInt8.reduceToNat]
    omega
  · decide
  · decide

/-- A name the configuration takes is one the service takes, and the other way round. -/
theorem validSntpServer_eq (server : Bytes) :
    validSntpServer server = Config.validSntpServer server := by
  rw [Bool.eq_iff_iff]
  unfold validSntpServer Config.validSntpServer Config.validConfigText
  constructor
  · intro h
    by_cases hends : (server.isEmpty || decide (253 < server.length) ||
        decide (server.head? = some '.'.toUInt8) ||
        decide (server.getLast? = some '.'.toUInt8)) = true
    · rw [if_pos hends] at h
      cases h
    · rw [if_neg hends] at h
      have hall : (server.all fun c => !(decide (c < 0x20) || decide (c = 0x7F))) = true := by
        rw [List.all_eq_true]
        intro c hc
        obtain ⟨hlow, hdelete⟩ := sntpServerChars_printable h hc
        simp [hlow, hdelete]
      simp only [Bool.or_eq_true, decide_eq_true_eq, not_or, Bool.not_eq_true, Nat.not_lt] at hends
      simp only [Bool.and_eq_true, Bool.not_eq_true', decide_eq_true_eq]
      exact ⟨⟨⟨⟨⟨hends.1.1.1, hends.1.1.2⟩, hall⟩, hends.1.2⟩, hends.2⟩, h⟩
  · intro h
    simp only [Bool.and_eq_true, Bool.not_eq_true', decide_eq_true_eq] at h
    obtain ⟨⟨⟨⟨⟨hempty, hlength⟩, -⟩, hhead⟩, hlast⟩, hchars⟩ := h
    have hends : ¬ (server.isEmpty || decide (253 < server.length) ||
        decide (server.head? = some '.'.toUInt8) ||
        decide (server.getLast? = some '.'.toUInt8)) = true := by
      simp only [Bool.or_eq_true, decide_eq_true_eq, not_or, Bool.not_eq_true, Nat.not_lt]
      exact ⟨⟨⟨hempty, hlength⟩, hhead⟩, hlast⟩
    rw [if_neg hends]
    exact hchars

theorem chars_of_validSntpServer {server : Bytes} (h : validSntpServer server = true) :
    Config.sntpServerChars 0 server = true := by
  rw [validSntpServer_eq, Config.validSntpServer, Bool.and_eq_true] at h
  exact h.2

/-- The lines of the file: nothing in the name can end its line. -/
theorem sntpConfig_lines {server : Bytes} (h : validSntpServer server = true) :
    (sntpConfig server).splitOn newline =
      [ascii "# Managed by uhf-gatewayd.", ascii "[Time]", ascii "NTP=" ++ server, []] := by
  have hname : newline ∉ ascii "NTP=" ++ server := by
    intro hmem
    rcases List.mem_append.mp hmem with hkey | hserver
    · exact absurd hkey (by decide)
    · exact (sntpServerChars_printable (chars_of_validSntpServer h) hserver).1 (by decide)
  have htext : sntpConfig server = [newline].intercalate
      [ascii "# Managed by uhf-gatewayd.", ascii "[Time]", ascii "NTP=" ++ server, []] := by
    simp only [sntpConfig, List.intercalate, List.intersperse, List.flatten_cons, List.flatten_nil,
      List.append_nil]
    rfl
  rw [htext, List.splitOn_intercalate _ _ (List.cons_ne_nil _ _)]
  intro line hline
  simp only [List.mem_cons, List.not_mem_nil, or_false] at hline
  rcases hline with rfl | rfl | rfl | rfl
  · decide
  · decide
  · exact hname
  · decide

/-! ### Replacing the file -/

section Replacing

variable {d : Disk} {server : Bytes} {descriptor : ℕ} {done : Trace fileCalls}

/-- A program that writes the file for this server. -/
abbrev WritesSntp (d : Disk) (server : Bytes) (p : Prog fileCalls Bool)
    (done : Trace fileCalls) : Prop :=
  Writes d kTimeSyncConfig (sntpConfig server) p done

theorem writesSntp_discard (h : Written d kTimeSyncConfig (sntpConfig server) done)
    (hrename : ¬ Replaces kTimeSyncConfig done) :
    WritesSntp d server (discard (kTimeSyncConfig ++ kTemporary)) done := by
  refine ⟨h, fun (unlinked : Bool) => ⟨?_, by simp, fun _ hmem => ?_⟩⟩
  · refine h.more _ (by simp) fun d' base hbeside => ?_
    cases unlinked with
    | false => exact hbeside
    | true => exact hbeside.removed
  · exact absurd hmem (not_replaces_snoc hrename _ (by simp))

/-- What has been done to the new file when it is to be closed. -/
def Filled (d : Disk) (server : Bytes) (descriptor : ℕ) (success : Bool)
    (done : Trace fileCalls) : Prop :=
  ¬ Replaces kTimeSyncConfig done ∧
    ∃ total, Staging d (kTimeSyncConfig ++ kTemporary) descriptor total done ∧
      (success = true → total = sntpConfig server)

theorem fillSntpConfig_heeds
    (h : Staging d (kTimeSyncConfig ++ kTemporary) descriptor [] done)
    (hrename : ¬ Replaces kTimeSyncConfig done) :
    (fillSntpConfig descriptor (sntpConfig server)).Heeds
      (fun done _ => Written d kTimeSyncConfig (sntpConfig server) done)
      (Filled d server descriptor) done := by
  refine Prog.heeds_bind ((writeLoop_heeds (fun done => ¬ Replaces kTimeSyncConfig done)
    (sntpConfig server) h hrename (fun _ _ _ hnot => not_replaces_snoc hnot _ (by simp))
    (fun _ _ _ hstaging hnot => .kept hnot hstaging.beside)).mono ?_)
  rintro complete done ⟨hrename, total, hstaging, hcomplete⟩
  cases complete with
  | false => exact ⟨hrename, total, hstaging, fun h => by cases h⟩
  | true =>
    refine ⟨.kept hrename hstaging.beside, fun (moded : Bool) => ?_⟩
    have hstaging := hstaging.quiet ⟨.fchmod descriptor, moded⟩ rfl
    have hrename := not_replaces_snoc hrename ⟨.fchmod descriptor, moded⟩ (by simp)
    cases moded with
    | false => exact ⟨hrename, total, hstaging, fun h => by cases h⟩
    | true =>
      refine ⟨.kept hrename hstaging.beside, fun (synced : Bool) => ?_⟩
      have hstaging := hstaging.quiet ⟨.fsync descriptor, synced⟩ rfl
      have hrename := not_replaces_snoc hrename ⟨.fsync descriptor, synced⟩ (by simp)
      exact ⟨hrename, total, hstaging, fun _ => hcomplete rfl⟩

theorem writesSntp_finish {success : Bool} (h : Filled d server descriptor success done) :
    WritesSntp d server (finishSntpConfig descriptor success) done := by
  obtain ⟨hrename, total, hstaging, htotal⟩ := h
  have hkept : Written d kTimeSyncConfig (sntpConfig server) done := .kept hrename hstaging.beside
  refine ⟨hkept, fun (closed : Bool) => ?_⟩
  have hkept := hkept.more ⟨.close descriptor, closed⟩ (by simp)
    fun _ _ hbeside => hbeside.closed descriptor
  have hrename := not_replaces_snoc hrename ⟨.close descriptor, closed⟩ (by simp)
  cases hready : success && closed with
  | false =>
    show WritesSntp d server (if !(success && closed) then _ else _) _
    rw [hready]
    exact writesSntp_discard hkept hrename
  | true =>
    rw [Bool.and_eq_true] at hready
    obtain ⟨rfl, rfl⟩ := hready
    obtain rfl := htotal rfl
    refine ⟨hkept, fun (renamed : Bool) => ?_⟩
    cases renamed with
    | false =>
      have hkept := hkept.more ⟨.rename (kTimeSyncConfig ++ kTemporary) kTimeSyncConfig, false⟩
        (by simp) fun _ _ hbeside => hbeside
      exact writesSntp_discard hkept (not_replaces_snoc hrename _ (by simp))
    | true =>
      have hmem : Replaces kTimeSyncConfig (done ++ [⟨.close descriptor, true⟩] ++
          [⟨.rename (kTimeSyncConfig ++ kTemporary) kTimeSyncConfig, true⟩]) :=
        List.mem_append_right _ (List.mem_singleton_self _)
      -- the rename takes the new file, which is complete, to its place
      refine writes_syncDirectory (.replaced hmem ?_) hmem
      rw [after_snoc, after_snoc]
      exact (hstaging.beside.closed descriptor).renamed hstaging.pending.content

theorem writesSntp_writeSntpConfig (d : Disk) (server : Bytes) :
    WritesSntp d server (writeSntpConfig server) [] := by
  have hnil : ¬ Replaces kTimeSyncConfig [] := by simp [Replaces]
  have hkept : Written d kTimeSyncConfig (sntpConfig server) [] := .kept hnil (beside_refl d _)
  refine ⟨hkept, fun (made : Bool) => ?_⟩
  have hnot := not_replaces_snoc hnil ⟨.createDirectories, made⟩ (by simp)
  cases made with
  | false => exact ⟨.kept hnot (beside_refl d _), by simp, fun _ hmem => absurd hmem hnot⟩
  | true =>
    refine ⟨.kept hnot (beside_refl d _), fun (directory : Bool) => ?_⟩
    have hnot := not_replaces_snoc hnot ⟨.isDirectory, directory⟩ (by simp)
    cases directory with
    | false => exact ⟨.kept hnot (beside_refl d _), by simp, fun _ hmem => absurd hmem hnot⟩
    | true =>
      refine ⟨.kept hnot (beside_refl d _), fun (opened : Option ℕ) => ?_⟩
      have hnot := not_replaces_snoc hnot
        ⟨.openTruncated (kTimeSyncConfig ++ kTemporary), opened⟩ (by simp)
      cases opened with
      | none => exact ⟨.kept hnot (beside_refl d _), by simp, fun _ hmem => absurd hmem hnot⟩
      | some descriptor =>
        refine Prog.heeds_bind ((fillSntpConfig_heeds ⟨?_, ?_⟩ hnot).mono
          fun success done hfilled => writesSntp_finish hfilled)
        · exact truncated_pending d descriptor _
        · exact (beside_refl d _).truncated descriptor

end Replacing

/-! ### Configuring the time service -/

/-- The files, and the commands run so far. -/
def maintenanceWorld : World maintenanceCalls (Disk × List CommandCall) where
  answers
    | .inl c, s, _, s' => s' = (s.1, s.2 ++ [c])
    | .inr o, s, a, s' => s' = (perform s.1 ⟨o, a⟩, s.2)
  cut
    | .inl c, s, s' => s' = s ∨ s' = (s.1, s.2 ++ [c])
    | .inr o, s, s' => s' = s ∨ ∃ a, s' = (perform s.1 ⟨o, a⟩, s.2)
  dies _ := True

/-- The file is as it was, and so is every other file but the temporary one. -/
def SntpKept (d d' : Disk) : Prop := d'.Beside (kTimeSyncConfig ++ kTemporary) d.content

/-- The file is that for this server, and every other file but the temporary one is as it was. -/
def SntpReplaced (d : Disk) (server : Bytes) (d' : Disk) : Prop :=
  d'.Beside (kTimeSyncConfig ++ kTemporary)
    (Function.update d.content kTimeSyncConfig (some (sntpConfig server)))

/-- What holds at every moment. -/
def SntpSafe (d : Disk) (server : Bytes) (s : Disk × List CommandCall) : Prop :=
  (s.2 = [] ∧ SntpKept d s.1) ∨ (validSntpServer server = true ∧ SntpReplaced d server s.1)

/-- What an operation on files does. -/
def performFile (s : Disk × List CommandCall) (act : Act fileCalls) : Disk × List CommandCall :=
  (perform s.1 act, s.2)

theorem foldl_files (d : Disk) (commands : List CommandCall) (done : Trace fileCalls) :
    done.foldl performFile (d, commands) = (after d done, commands) := by
  induction done generalizing d with
  | nil => rfl
  | cons act done ih => exact ih (perform d act)

theorem writeSntpConfig_ensures (d : Disk) {server : Bytes}
    (hserver : validSntpServer server = true) :
    ((writeSntpConfig server).inr : MaintenanceProg).Ensures maintenanceWorld
      (SntpSafe d server)
      (fun written s => SntpSafe d server s ∧ s.2 = [] ∧
        (written = true → SntpReplaced d server s.1)) (d, []) := by
  have hsafe : ∀ done, Written d kTimeSyncConfig (sntpConfig server) done →
      SntpSafe d server (after d done, []) := by
    intro done hwritten
    cases hwritten with
    | kept _ beside => exact .inl ⟨rfl, beside⟩
    | replaced _ beside => exact .inr ⟨hserver, beside⟩
  have hanswers : ∀ o s a s', maintenanceWorld.inr.answers o s a s' →
      s' = performFile s ⟨o, a⟩ := fun _ _ _ _ h => h
  have hcut : ∀ o s s', maintenanceWorld.inr.cut o s s' →
      s' = s ∨ ∃ a, s' = performFile s ⟨o, a⟩ := fun _ _ _ h => h
  refine Prog.inr_ensures (Prog.Heeds.ensures hanswers hcut ?_ ?_
    (writesSntp_writeSntpConfig d server))
  · intro done _ hwritten
    rw [foldl_files]
    exact hsafe done hwritten
  · rintro written done ⟨hwritten, hcomplete, -⟩
    rw [foldl_files]
    refine ⟨hsafe done hwritten, hsafe done hwritten, rfl, fun h => ?_⟩
    cases hwritten with
    | kept hnot _ => exact absurd (hcomplete h).1 hnot
    | replaced _ beside => exact beside

theorem configureSntp_ensures (server : Bytes) (d : Disk) :
    (ExecMaintenanceRunner.configureSntp server).Ensures maintenanceWorld
      (SntpSafe d server) (fun result s => SntpSafe d server s ∧
        (result = true → SntpReplaced d server s.1 ∧
          s.2 = [ExecMaintenanceRunner.restartTimeSync, ExecMaintenanceRunner.enableNtp]))
      (d, []) := by
  have hstart : SntpSafe d server (d, []) := .inl ⟨rfl, beside_refl d _⟩
  unfold ExecMaintenanceRunner.configureSntp
  cases hserver : validSntpServer server with
  | false => exact ⟨fun _ => hstart, hstart, fun h => by cases h⟩
  | true =>
    refine Prog.ensures_bind
      (Prog.ensures_mono (fun _ h => h) ?_ (writeSntpConfig_ensures d hserver))
    rintro written s ⟨hsafe, hnone, hreplaced⟩
    cases written with
    | false => exact ⟨fun _ => hsafe, hsafe, fun h => by cases h⟩
    | true =>
      have hfile := hreplaced rfl
      -- commands do not touch the file
      have hkept : ∀ commands, SntpSafe d server (s.1, commands) := fun _ => .inr ⟨hserver, hfile⟩
      refine ⟨fun _ => hsafe, ?_, ?_⟩
      · rintro s' (rfl | rfl)
        · exact hsafe
        · exact hkept _
      · rintro restarted s' rfl
        cases restarted with
        | false => exact ⟨fun _ => hkept _, hkept _, fun h => by cases h⟩
        | true =>
          refine ⟨fun _ => hkept _, ?_, ?_⟩
          · rintro s' (rfl | rfl)
            · exact hkept _
            · exact hkept _
          · rintro enabled s' rfl
            refine ⟨fun _ => hkept _, hkept _, fun _ => ⟨hfile, ?_⟩⟩
            rw [hnone]
            rfl


end Uhf.Privileged
