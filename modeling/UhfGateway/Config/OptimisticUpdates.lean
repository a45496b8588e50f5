/-
Clients of one configuration store.

Any number of clients call `update` and `set_iec_ied_name`; an update names the version that
its client has seen.

* `version_between` — versions only grow, and a version that stands still has seen no change;
* `optimistic_updates` — no two updates with one expected version come through, and none
  overwrites a change that its client has not seen.
-/
import UhfGateway.Config.ConfigRuns

namespace Uhf.Config

open Effects Posix Storage

variable {ι : Type} {file defaultsFile : Bytes} {snapshot snapshot' : Snapshot}
  {call : ConfigCall} {result : ConfigResult} {trace : Trace fileCalls}
  {served : List (ConfigServed ι)}

/-- The version can still be counted up. -/
def Countable (served : ConfigServed ι) : Prop :=
  served.before.1.version.toNat < 18446744073709551615

theorem toNat_version_next {version : UInt64} (h : version.toNat < 18446744073709551615) :
    (version + 1).toNat = version.toNat + 1 := by
  rw [UInt64.toNat_add]
  simp only [UInt64.reduceToNat]
  omega

/-- A call leaves the snapshot as it is, or succeeds with the next version. -/
theorem performed_version
    (h : ((configStore file).method snapshot call).Exec trace (result, snapshot')) :
    snapshot' = snapshot ∨ Succeeded result ∧ snapshot'.version = snapshot.version + 1 := by
  cases performed h with
  | unwritten _ _ => exact .inl rfl
  | stored _ _ _ _ hresult => exact .inr ⟨hresult, rfl⟩
  | failed _ _ _ _ => exact .inl rfl

/-- An update that came through has found its version and has left the next one. -/
theorem updated_version {expected : UInt64} {body : Bytes}
    (h : ((configStore file).method snapshot (.update expected body)).Exec trace
      (.update .updated, snapshot')) :
    snapshot.version = expected ∧ snapshot'.version = expected + 1 := by
  cases performed h with
  | unwritten _ hresult => exact absurd rfl hresult
  | stored _ _ hexpected _ _ =>
    obtain rfl := hexpected expected body rfl
    exact ⟨rfl, rfl⟩
  | failed _ _ _ hresult => exact absurd (.inl rfl) hresult

/-- Along a run the version only grows, and where it is the same at both ends no call has
changed the snapshot. -/
theorem version_between {start final : Snapshot × Disk}
    (hrun : (configStore file).Serial perform start served final)
    (hcountable : ∀ s ∈ served, Countable s) :
    start.1.version.toNat ≤ final.1.version.toNat ∧
      (final.1.version = start.1.version → ∀ s ∈ served, s.after.1 = s.before.1) := by
  induction hrun with
  | start => simp
  | @serve served m s trace r m' hserial client request exec ih =>
    rw [List.forall_mem_append, List.forall_mem_singleton] at hcountable
    obtain ⟨hgrown, hsame⟩ := ih hcountable.1
    rcases performed_version exec with rfl | ⟨-, hversion⟩
    · refine ⟨hgrown, fun heq => ?_⟩
      rw [List.forall_mem_append, List.forall_mem_singleton]
      exact ⟨hsame heq, rfl⟩
    · have hnext := toNat_version_next hcountable.2
      simp only at hgrown hversion hnext
      rw [← hversion] at hnext
      refine ⟨?_, fun heq => ?_⟩
      · show start.1.version.toNat ≤ m'.version.toNat
        omega
      · -- a call that counts up cannot end where the run began
        have hsameNat := congrArg UInt64.toNat heq
        simp only at hsameNat
        omega

/-- What clients may rely on. -/
structure Optimistic (served : List (ConfigServed ι)) : Prop where
  counts : ∀ s ∈ served, Succeeded s.result → s.after.1 ≠ s.before.1 →
    s.after.1.version.toNat = s.before.1.version.toNat + 1
  refuses : ∀ s ∈ served, ¬ Succeeded s.result → s.after.1 = s.before.1
  finds : ∀ s ∈ served, ∀ expected body, s.request = .update expected body →
    s.result = .update .updated →
      s.before.1.version = expected ∧ s.after.1.version.toNat = expected.toNat + 1
  single : ∀ first s mid t last expected body body', served = first ++ s :: mid ++ t :: last →
    s.request = .update expected body → t.request = .update expected body' →
      ¬ (s.result = .update .updated ∧ t.result = .update .updated)
  current : ∀ first s mid t last expected body, served = first ++ s :: mid ++ t :: last →
    t.request = .update expected body → t.result = .update .updated →
      s.before.1.version = expected → s.after.1 = s.before.1 ∧ ∀ u ∈ mid, u.after.1 = u.before.1

theorem serial_optimistic {start final : Snapshot × Disk}
    (hrun : (configStore file).Serial perform start served final)
    (hcountable : ∀ s ∈ served, Countable s) : Optimistic served := by
  have hexec : ∀ s ∈ served, ((configStore file).method s.before.1 s.request).Exec s.trace
      (s.result, s.after.1) := by
    intro s hs
    obtain ⟨first, last, rfl⟩ := List.append_of_mem hs
    exact hrun.cut.2.2.2
  have hfinds : ∀ s ∈ served, ∀ expected body, s.request = .update expected body →
      s.result = .update .updated →
        s.before.1.version = expected ∧ s.after.1.version.toNat = expected.toNat + 1 := by
    intro s hs expected body hrequest hresult
    have hupdate := hexec s hs
    rw [hrequest, hresult] at hupdate
    obtain ⟨rfl, hafter⟩ := updated_version hupdate
    refine ⟨rfl, ?_⟩
    rw [hafter, toNat_version_next (hcountable s hs)]
  have hmem : ∀ {first s mid t last}, served = first ++ s :: mid ++ t :: last →
      s ∈ served ∧ t ∈ served ∧ ∀ u ∈ mid, u ∈ served := by
    rintro first s mid t last rfl
    simp +contextual
  refine ⟨?_, ?_, hfinds, ?_, ?_⟩
  · intro s hs _ hchanged
    rcases performed_version (hexec s hs) with hsame | ⟨-, hversion⟩
    · exact absurd hsame hchanged
    · rw [hversion, toNat_version_next (hcountable s hs)]
  · intro s hs hfailed
    rcases performed_version (hexec s hs) with hsame | ⟨hsucceeded, -⟩
    · exact hsame
    · exact absurd hsucceeded hfailed
  · rintro first s mid t last expected body body' hserved hs ht ⟨hsresult, htresult⟩
    obtain ⟨hsmem, htmem, hmid⟩ := hmem hserved
    have hafter := (hfinds s hsmem expected body hs hsresult).2
    have hbefore := (hfinds t htmem expected body' ht htresult).1
    subst hserved
    have hgrown := (version_between hrun.between fun u hu => hcountable u (hmid u hu)).1
    rw [hbefore] at hgrown
    omega
  · intro first s mid t last expected body hserved ht htresult hversion
    obtain ⟨hsmem, htmem, hmid⟩ := hmem hserved
    have hbefore := (hfinds t htmem expected body ht htresult).1
    have hscount := hcountable s hsmem
    subst hserved
    obtain ⟨hgrown, hsame⟩ := version_between hrun.between fun u hu => hcountable u (hmid u hu)
    rcases performed_version (hexec s hsmem) with hskept | ⟨-, hnext⟩
    · refine ⟨hskept, hsame ?_⟩
      rw [hbefore, hskept, hversion]
    · -- the version has moved on before the update came
      have hnextNat := toNat_version_next hscount
      rw [← hnext, hversion] at hnextNat
      rw [hbefore] at hgrown
      omega

/-- However the clients' steps are ordered: versions count the changes, of the updates with one
expected version at most one comes through, and only if nothing has changed since, calls that
fail change nothing, and the configuration has always passed every check. -/
theorem optimistic_updates [DecidableEq ι] {d₀ d : Disk}
    {x : Monitor.State fileCalls ι Snapshot Disk ConfigCall ConfigResult}
    (hstart : Constructed file defaultsFile d₀ snapshot d)
    (hrun : (configStore file).Interleaved perform (snapshot, d) served x)
    (hcountable : ∀ s ∈ served, Countable s) :
    Optimistic served ∧
      validate x.memory.values = true ∧ x.memory.values.InRange ∧ x.memory.values.PortsApart ∧
        x.memory.values.storageEventRearmDbm < x.memory.values.storageEventThresholdDbm ∧
        x.memory.values.UnitIds := by
  obtain ⟨s, hserial⟩ := hrun.serial
  have hsound : x.memory.values.Sound := by
    have hinvariant := hserial.invariant (fun y => y.1.values.Sound)
      (constructed_started hstart).sound
      fun m s request trace r m' hbefore exec => performed_sound exec hbefore
    exact hinvariant.1
  exact ⟨serial_optimistic hserial hcountable, hsound.valid, hsound.inRange,
    validate_portsApart hsound.valid, validate_rearm hsound.valid, validate_unitIds hsound.valid⟩

/-- A new name, written without a failure. -/
def syncedName : ConfigServed Unit :=
  newName [⟨.openDirectory, some 4⟩, ⟨.fsync 4, true⟩, ⟨.close 4, true⟩] true

theorem syncedName_interleaved :
    (configStore configFile).Interleaved perform ({}, configDisk) [syncedName]
      ⟨syncedName.after.1, syncedName.after.2, fun _ => none, none⟩ := by
  obtain ⟨-, -, hdisk, hexec⟩ := Monitor.serial_singleton.mp (newName_serial synced_exec)
  have hserve : (configStore configFile).Interleaved perform ({}, configDisk)
      ([] ++ [⟨(), syncedName.request, syncedName.before, syncedName.trace, syncedName.result,
        (syncedName.after.1, syncedName.trace.foldl perform configDisk)⟩])
      ⟨syncedName.after.1, syncedName.trace.foldl perform configDisk, fun _ => none, none⟩ :=
    Monitor.Interleaved.start.serve (fun _ => rfl) rfl () _ hexec
  have hafter : syncedName.trace.foldl perform configDisk = syncedName.after.2 := hdisk.symm
  rw [hafter] at hserve
  exact hserve

theorem syncedName_optimistic :
    Optimistic [syncedName] ∧
      validate renamedSnapshot.values = true ∧ renamedSnapshot.values.InRange ∧
        renamedSnapshot.values.PortsApart ∧
        renamedSnapshot.values.storageEventRearmDbm <
          renamedSnapshot.values.storageEventThresholdDbm ∧
        renamedSnapshot.values.UnitIds :=
  optimistic_updates configDisk_constructed syncedName_interleaved
    (List.forall_mem_singleton.mpr (by decide : ({} : Snapshot).version.toNat < 18446744073709551615))

end Uhf.Config
