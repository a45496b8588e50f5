/-
The privileged service and the recovery process on the same files.

Either process has a `TransactionManager` and a `LinuxNetworkBackend` of its own;
they share the journal, the configuration and the lease files, and take turns by
the file lock only.  The backend object of the service remembers the transaction
it staged; the recovery process may roll that transaction back behind its back.

* `crew` — both processes at the granularity of single sub-steps;
* `stage_accepted_of_undisturbed` — as long as the recovery process does not finish
  a transaction that the service's object believes to be staged, the memory of
  both objects agrees with the journal and no stage is refused;
* `stage_refused_after_recovery` — what happens otherwise.
-/
import UhfGateway.Effects.Lock
import UhfGateway.Network.BackendFiles

namespace Uhf.Network

open Effects Effects.Prog

/-! ### The two processes -/

/-- The sub-steps of an operation as the kernel sees them: those of the manager,
and those of the backend below it. -/
@[reducible] def systemCalls : Interface := transactionCalls.sum backendCalls

/-- The calls of the manager, performed by its backend object. -/
def implement (b : LinuxBackend) :
    (o : TransactionCall) → Prog systemCalls (transactionCalls.Answer o × LinuxBackend)
  | .readCurrent => b.readCurrent.inr >>= fun config => .done (config, b)
  | .applyStage previous candidate => (b.applyStage previous candidate).inr
  | .confirm previous candidate => (b.confirm previous candidate).inr
  | .rollback previous candidate => (b.rollback previous candidate).inr
  | .lock => .call (I := systemCalls) (.inl .lock) fun a => .done (a, b)
  | .load => .call (I := systemCalls) (.inl .load) fun a => .done (a, b)
  | .save t => .call (I := systemCalls) (.inl (.save t)) fun a => .done (a, b)
  | .clear => .call (I := systemCalls) (.inl .clear) fun a => .done (a, b)
  | .bootId => .call (I := systemCalls) (.inl .bootId) fun a => .done (a, b)
  | .boottimeNs => .call (I := systemCalls) (.inl .boottimeNs) fun a => .done (a, b)

inductive Actor
  | service
  | recovery
  deriving DecidableEq, Repr

/-- What the service is asked to do; a candidate has been parsed before. -/
inductive ServiceRequest
  | stage (candidate : { c : NetworkConfig // Storable c })
  | confirm
  | rollbackNow
  | rollbackIfNeeded

def ServiceRequest.operation : ServiceRequest → Operation
  | .stage candidate => .stage candidate.1
  | .confirm => .confirm
  | .rollbackNow => .rollbackNow
  | .rollbackIfNeeded => .rollbackIfNeeded

/-- The recovery process knows one operation. -/
def Actor.operation : Actor → ServiceRequest → Operation
  | .service, q => q.operation
  | .recovery, _ => .rollbackIfNeeded

/-- The objects a process keeps from one operation to the next. -/
abbrev Process := TransactionManager × LinuxBackend

/-- An operation of a process, down to the sub-steps of its backend. -/
def Process.serve (m : Process) (q : Operation) : Prog systemCalls (TransactionResult × Process) :=
  (q.program m.1).through implement m.2 >>= fun r => .done (r.1.1, (r.1.2, r.2))

/-- Both processes, and the lock they share. -/
def crew : Crew systemCalls Actor Process ServiceRequest TransactionResult where
  program i m q := m.serve (i.operation q)
  acquire := .inl .lock
  granted a := a = true

/-! ### The files they share -/

def rollbackWindow : UInt64 := 60 * 1000 * 1000 * 1000

/-- The answers of the manager's own sub-steps when nothing fails; `allowed` says
which of them are to happen at all. -/
def smoothManagerAnswers (allowed : TransactionCall → Prop) :
    (o : TransactionCall) → Disk → transactionCalls.Answer o → Disk → Prop
  | .load, d, r, d' => r = d.journal.elim .none .valid ∧ d' = d
  | .save t, d, ok, d' => allowed (.save t) ∧ ok = true ∧ d' = { d with journal := some t }
  | .clear, d, ok, d' => ok = true ∧ d' = { d with journal := none }
  | .bootId, d, b, d' => b ≠ [] ∧ d' = d
  | .boottimeNs, d, n, d' =>
    (n ≠ 0 ∧ ¬ rollbackWindow > (0xFFFFFFFFFFFFFFFF : UInt64) - n) ∧ d' = d
  | .lock, _, _, _ | .readCurrent, _, _, _ | .applyStage _ _, _, _, _ | .confirm _ _, _, _, _
  | .rollback _ _, _, _, _ => False

/-- The surroundings of a process that holds the lock, when nothing fails. -/
def smoothSystem (allowed : TransactionCall → Prop) : World systemCalls Disk where
  answers
    | .inl o => smoothManagerAnswers allowed o
    | .inr o => smoothAnswers o
  cut _ _ _ := False
  dies _ := False

/-- Every step may happen. -/
def anything (_ : Actor) (_ : Actor → Process) : World systemCalls Disk :=
  smoothSystem fun _ => True

/-- The recovery process does not mark a transaction as rolled back while the
service's backend object believes it to be staged. -/
def undisturbed (i : Actor) (mem : Actor → Process) : World systemCalls Disk :=
  smoothSystem fun o => i = .recovery → (∃ t, o = .save t ∧ t.state = .rolledBack) →
    (mem .service).2.staged = false

/-- Two processes that were just started, on given files. -/
def startedOn (vendor : Bool) (d : Disk) :
    Crew.State systemCalls Actor Process ServiceRequest TransactionResult Disk where
  shared := d
  holder := none
  mem _ := ({}, { vendorEth0 := vendor, vendorEth1 := vendor })
  running _ := none

/-- Files that belong together: those of the journalled transaction while it is
staged, those of a settled configuration else. -/
structure Coherent (d : Disk) : Prop where
  leases : LeasesValid d
  staged : ∀ t, d.journal = some t → t.state = .staged → StagedFiles d t.previous t.candidate
  settles : Settles d
  decided : ∀ t, d.journal = some t → t.state ≠ .confirming

/-- The backend object agrees with the journal. -/
def Fits (b : LinuxBackend) (d : Disk) : Prop :=
  Equipped b ∧ (b.staged = true → ∃ t, d.journal = some t ∧ t.state = .staged ∧
    b.stagedPrevious = t.previous ∧ b.stagedCandidate = t.candidate)

/-! ### The manager over its backend -/

section Manager

variable {allowed : TransactionCall → Prop} {α : Type} {Q : α → LinuxBackend × Disk → Prop}
  {b : LinuxBackend} {d : Disk}

/-- An operation of the manager, with its backend below it. -/
abbrev Serves (allowed : TransactionCall → Prop) {α : Type}
    (Q : α → LinuxBackend × Disk → Prop) (p : TransactionProg α) (b : LinuxBackend) (d : Disk) :
    Prop :=
  p.Ensures ((smoothSystem allowed).above implement) (fun _ => True) Q (b, d)

theorem serves_done {a : α} (h : Q a (b, d)) : Serves allowed Q (.done a) b d :=
  ⟨fun _ => trivial, h⟩

theorem serves_load {k : LoadResult → TransactionProg α}
    (h : Serves allowed Q (k (d.journal.elim .none .valid)) b d) :
    Serves allowed Q (ask .load k) b d := by
  refine ensures_above ⟨fun hd => hd.elim, fun _ hc => hc.elim, ?_⟩
  rintro a d' ⟨rfl, rfl⟩
  exact ⟨fun hd => hd.elim, h⟩

theorem serves_save {t : Transaction} {k : Bool → TransactionProg α}
    (h : allowed (.save t) → Serves allowed Q (k true) b { d with journal := some t }) :
    Serves allowed Q (ask (.save t) k) b d := by
  refine ensures_above ⟨fun hd => hd.elim, fun _ hc => hc.elim, ?_⟩
  rintro a d' ⟨ha, rfl, rfl⟩
  exact ⟨fun hd => hd.elim, h ha⟩

theorem serves_clear {k : Bool → TransactionProg α}
    (h : Serves allowed Q (k true) b { d with journal := none }) :
    Serves allowed Q (ask .clear k) b d := by
  refine ensures_above ⟨fun hd => hd.elim, fun _ hc => hc.elim, ?_⟩
  rintro a d' ⟨rfl, rfl⟩
  exact ⟨fun hd => hd.elim, h⟩

theorem serves_clock {k : Bytes → UInt64 → TransactionProg α}
    (h : ∀ id n, id ≠ [] → n ≠ 0 → ¬ rollbackWindow > (0xFFFFFFFFFFFFFFFF : UInt64) - n →
      Serves allowed Q (k id n) b d) :
    Serves allowed Q (ask .bootId fun id => ask .boottimeNs fun n => k id n) b d := by
  refine ensures_above ⟨fun hd => hd.elim, fun _ hc => hc.elim, ?_⟩
  rintro id d' ⟨hid, rfl⟩
  refine ⟨fun hd => hd.elim, ?_⟩
  refine ensures_above ⟨fun hd => hd.elim, fun _ hc => hc.elim, ?_⟩
  rintro n d'' ⟨⟨hn, hwin⟩, rfl⟩
  exact ⟨fun hd => hd.elim, h id n hid hn hwin⟩

/-- A call of the backend, by what its program ensures on the files. -/
theorem serves_backend {β : Type} {p : BackendProg β} {R : β → Disk → Prop}
    {f : β → Prog systemCalls α} {Q : α → Disk → Prop} (hp : Meets R p d)
    (h : ∀ r d', R r d' → (f r).Ensures (smoothSystem allowed) (fun _ => True) Q d') :
    (p.inr >>= f).Ensures (smoothSystem allowed) (fun _ => True) Q d := by
  refine ensures_bind (inr_ensures ?_)
  exact ensures_mono (W := smoothBackend) (fun _ h => h) (fun r d' hr => h r d' hr) hp

theorem serves_readCurrent {k : Option NetworkConfig → TransactionProg α} (hb : Equipped b)
    (hs : Settles d)
    (h : ∀ config d', Holds d' config → d'.journal = d.journal → d'.leases = d.leases →
      Serves allowed Q (k (some config)) b d') : Serves allowed Q (ask .readCurrent k) b d := by
  refine ensures_above (serves_backend (readCurrent_meets hb hs) ?_)
  rintro r d' ⟨config, rfl, hh, hj, hl⟩
  exact ⟨fun hd => hd.elim, h config d' hh hj hl⟩

theorem serves_applyStage {previous candidate : NetworkConfig} {k : Bool → TransactionProg α}
    (hb : Equipped b) (hstaged : b.staged = false) (hp : Holds d previous)
    (hc : Storable candidate) (hv : LeasesValid d)
    (h : ∀ d', StagedFiles d' previous candidate → LeasesValid d' → d'.journal = d.journal →
      Serves allowed Q (k true)
        { b with staged := true, stagedPrevious := previous, stagedCandidate := candidate } d') :
    Serves allowed Q (ask (.applyStage previous candidate) k) b d := by
  refine ensures_above (inr_ensures ?_)
  refine ensures_mono (W := smoothBackend) (fun _ h => h) ?_
    (applyStage_meets hb hstaged hp hc hv)
  rintro r d' ⟨rfl, hf, hv', hj⟩
  exact h d' hf hv' hj

theorem serves_confirm {previous candidate : NetworkConfig} {k : Bool → TransactionProg α}
    (hb : Equipped b) (hown : Own b previous candidate) (hf : StagedFiles d previous candidate)
    (hv : LeasesValid d)
    (h : ∀ d', Holds d' candidate → LeasesValid d' → d'.journal = d.journal →
      Serves allowed Q (k true) { b with staged := false } d') :
    Serves allowed Q (ask (.confirm previous candidate) k) b d := by
  refine ensures_above (inr_ensures ?_)
  refine ensures_mono (W := smoothBackend) (fun _ h => h) ?_ (confirm_meets hb hown hf hv)
  rintro r d' ⟨rfl, hh, hv', hj⟩
  exact h d' hh hv' hj

theorem serves_rollback {previous candidate : NetworkConfig} {k : Bool → TransactionProg α}
    (hb : Equipped b) (hown : Own b previous candidate) (hf : StagedFiles d previous candidate)
    (hv : LeasesValid d)
    (h : ∀ d', Holds d' previous → LeasesValid d' → d'.journal = d.journal →
      Serves allowed Q (k true) { b with staged := false } d') :
    Serves allowed Q (ask (.rollback previous candidate) k) b d := by
  refine ensures_above (inr_ensures ?_)
  refine ensures_mono (W := smoothBackend) (fun _ h => h) ?_ (rollback_meets hb hown hf hv)
  rintro r d' ⟨rfl, hh, hv', hj⟩
  exact h d' hh hv' hj

end Manager

/-! ### The operations of a process that holds the lock -/

section Operations

variable {allowed : TransactionCall → Prop} {b : LinuxBackend} {d : Disk}
  {m m' : TransactionManager} {t : Transaction} {k : Bool → TransactionProg OperationResult}

/-- What an operation has to leave behind for its own process. -/
structure Tidy (m : TransactionManager) (r : OperationResult) (x : LinuxBackend × Disk) :
    Prop where
  coherent : Coherent x.2
  fits : Fits x.1 x.2
  window : r.2.rollbackWindowNs = m.rollbackWindowNs

theorem Coherent.of_settled (hv : LeasesValid d) (hs : Settles d) (hj : d.journal = none) :
    Coherent d :=
  ⟨hv, by simp [hj], hs, by simp [hj]⟩

theorem Fits.of_unstaged (hb : Equipped b) (hs : b.staged = false) : Fits b d :=
  ⟨hb, by simp [hs]⟩

/-- The object agrees with the journal, so the staged transaction is its own. -/
theorem Fits.own (h : Fits b d) (hj : d.journal = some t) : Own b t.previous t.candidate := by
  intro hs
  obtain ⟨t', ht', -, hp, hc⟩ := h.2 hs
  rw [hj] at ht'
  cases ht'
  exact ⟨hp, hc⟩

/-- Without a staged transaction in the journal the object has none either. -/
theorem Fits.unstaged (h : Fits b d) (hj : ∀ t, d.journal = some t → t.state ≠ .staged) :
    b.staged = false := by
  rw [← Bool.not_eq_true]
  intro hs
  obtain ⟨t, ht, hst, -⟩ := h.2 hs
  exact hj t ht hst

theorem rollbackLoaded_serves {reason : TransactionResult} (hd : Coherent d) (hb : Fits b d)
    (hj : d.journal = some t) (hst : t.state = .staged)
    (hm : m'.rollbackWindowNs = m.rollbackWindowNs) :
    Serves allowed (fun r x => Tidy m r x ∧ x.1.staged = false ∧
        allowed (.save { t with state := .rolledBack }))
      (m'.rollbackLoaded t reason) b d := by
  refine serves_rollback hb.1 (hb.own hj) (hd.staged t hj hst) hd.leases ?_
  intro d₁ hh hv hj₁
  refine serves_save fun hallowed => ?_
  refine serves_clear ?_
  have htidy : ∀ r : OperationResult, r.2.rollbackWindowNs = m.rollbackWindowNs →
      Tidy m r ({ b with staged := false }, { d₁ with journal := none }) := fun r hr =>
    ⟨.of_settled hv (.inl ⟨_, hh.network, hh.storable, hh.cover⟩) rfl,
      .of_unstaged ⟨hb.1.client, hb.1.vendor⟩ rfl, hr⟩
  simp only [Bool.not_true, Bool.false_eq_true, if_false]
  split
  · exact serves_done ⟨htidy _ hm, rfl, hallowed⟩
  · exact serves_done ⟨htidy _ hm, rfl, hallowed⟩

theorem confirmLoaded_serves (hd : Coherent d) (hb : Fits b d) (hj : d.journal = some t)
    (hst : t.state = .staged) (hm : m'.rollbackWindowNs = m.rollbackWindowNs) :
    Serves allowed (fun r x => Tidy m r x) (m'.confirmLoaded t) b d := by
  have hf := hd.staged t hj hst
  refine serves_save fun _ => ?_
  refine serves_confirm hb.1 (hb.own hj) (d := { d with journal := _ })
    ⟨⟨hf.held.network, hf.held.storable, hf.held.cover⟩, hf.storable, hf.stagedLeases,
      hf.previousLeases⟩ hd.leases ?_
  intro d₁ hh hv hj₁
  refine serves_save fun _ => ?_
  refine serves_clear (serves_done ⟨?_, ?_, hm⟩)
  · exact .of_settled hv (.inl ⟨_, hh.network, hh.storable, hh.cover⟩) rfl
  · exact .of_unstaged ⟨hb.1.client, hb.1.vendor⟩ rfl

theorem stageUnlocked_serves {candidate : NetworkConfig} (hd : Coherent d) (hb : Fits b d)
    (hc : Storable candidate) (hs : b.staged = false) (hw : m'.rollbackWindowNs = rollbackWindow)
    (hm : m'.rollbackWindowNs = m.rollbackWindowNs) :
    Serves allowed (fun r x => Tidy m r x ∧ r.1 ≠ .backendError) (m'.stageUnlocked candidate) b d := by
  refine serves_readCurrent hb.1 hd.settles ?_
  intro previous d₁ hh hj hl
  simp only [hh.storable.1, Bool.not_true, Bool.false_eq_true, if_false]
  refine serves_clock fun id n hid hn hwin => ?_
  have hok : ¬ (id.isEmpty = true ∨ n = 0 ∨
      m'.rollbackWindowNs > (0xFFFFFFFFFFFFFFFF : UInt64) - n) := by
    rw [hw]
    simp only [List.isEmpty_iff, not_or]
    exact ⟨hid, hn, hwin⟩
  rw [if_neg hok]
  refine serves_save fun _ => ?_
  have hv₁ : LeasesValid d₁ := by
    intro f ls hls
    exact hd.leases f ls (by rw [← hl]; exact hls)
  -- the object has no transaction of its own, so the backend cannot refuse
  refine serves_applyStage hb.1 hs (d := { d₁ with journal := _ })
    ⟨hh.network, hh.storable, hh.cover⟩ hc hv₁ ?_
  intro d₂ hf hv hj₂
  refine serves_done ⟨⟨⟨hv, ?_, .inl ⟨_, hf.held⟩, ?_⟩, ⟨⟨hb.1.client, hb.1.vendor⟩, ?_⟩, hm⟩, by simp⟩
  · intro t ht _
    rw [hj₂] at ht
    cases ht
    exact hf
  · intro t ht
    rw [hj₂] at ht
    cases ht
    simp
  · intro _
    exact ⟨_, hj₂, rfl, rfl, rfl⟩

/-- `stage` under the lock. -/
theorem stage_serves {candidate : NetworkConfig} (hd : Coherent d) (hb : Fits b d)
    (hc : Storable candidate) (hw : m.rollbackWindowNs = rollbackWindow)
    (hk : m.stage candidate = ask .lock k) :
    Serves allowed (fun r x => Tidy m r x ∧ r.1 ≠ .backendError) (k true) b d := by
  simp only [TransactionManager.stage, hc.1, Bool.not_true, Bool.false_eq_true, if_false] at hk
  cases hk
  simp only [Bool.not_true, Bool.false_eq_true, if_false]
  refine serves_load ?_
  cases hj : d.journal with
  | none => exact stageUnlocked_serves hd hb hc (hb.unstaged (by simp [hj])) hw rfl
  | some t =>
    simp only [Option.elim]
    split
    · exact serves_done ⟨⟨hd, hb, rfl⟩, by simp [TransactionManager.setError]⟩
    · rename_i hp
      refine stageUnlocked_serves hd hb hc (hb.unstaged ?_) hw rfl
      intro t' ht' hst
      rw [hj] at ht'
      cases ht'
      exact hp (.inl hst)

/-- The operations on a journalled transaction under the lock. -/
theorem withLoaded_serves {Q : OperationResult → LinuxBackend × Disk → Prop}
    {go : TransactionManager → Transaction → TransactionProg OperationResult}
    (hnone : d.journal = none → ∀ message,
      Q (TransactionManager.setError { m with lastError := "" } .noTransaction message) (b, d))
    (hsome : ∀ t, d.journal = some t → Serves allowed Q (go { m with lastError := "" } t) b d)
    (hk : m.withLoaded go = ask .lock k) : Serves allowed Q (k true) b d := by
  cases hk
  simp only [Bool.not_true, Bool.false_eq_true, if_false]
  refine serves_load ?_
  cases hj : d.journal with
  | none => exact serves_done (hnone hj _)
  | some t => exact hsome t hj

theorem confirm_serves (hd : Coherent d) (hb : Fits b d) (hk : m.confirm = ask .lock k) :
    Serves allowed (fun r x => Tidy m r x) (k true) b d := by
  refine withLoaded_serves (fun _ _ => ⟨hd, hb, rfl⟩) ?_ hk
  intro t hj
  by_cases hst : t.state = .staged
  · rw [if_neg (not_not.mpr hst)]
    refine serves_clock fun id n _ _ _ => ?_
    split
    · exact ensures_mono (fun _ h => h) (fun _ _ h => h.1)
        (rollbackLoaded_serves (m := m) hd hb hj hst rfl)
    · split
      · exact ensures_mono (fun _ h => h) (fun _ _ h => h.1)
          (rollbackLoaded_serves (m := m) hd hb hj hst rfl)
      · exact confirmLoaded_serves hd hb hj hst rfl
  · rw [if_pos hst]
    split
    · exact serves_done ⟨hd, hb, rfl⟩
    · exact serves_done ⟨hd, hb, rfl⟩

theorem rollbackNow_serves (hd : Coherent d) (hb : Fits b d) (hk : m.rollbackNow = ask .lock k) :
    Serves allowed (fun r x => Tidy m r x) (k true) b d := by
  refine withLoaded_serves (fun _ _ => ⟨hd, hb, rfl⟩) ?_ hk
  intro t hj
  split
  · exact serves_done ⟨hd, hb, rfl⟩
  · rename_i hp
    have hst : t.state = .staged := (not_not.mp hp).resolve_right (hd.decided t hj)
    exact ensures_mono (fun _ h => h) (fun _ _ h => h.1)
      (rollbackLoaded_serves (m := m) hd hb hj hst rfl)

/-- `rollback_if_needed` under the lock: a staged transaction stays, or it is
marked as rolled back. -/
theorem rollbackIfNeeded_serves (hd : Coherent d) (hb : Fits b d)
    (hk : m.rollbackIfNeeded = ask .lock k) :
    Serves allowed (fun r x => Tidy m r x ∧ (b.staged = false → x.1.staged = false) ∧
      ((x.2.journal = d.journal ∨ ∀ t, d.journal = some t → t.state ≠ .staged) ∨
        ∃ t, t.state = .rolledBack ∧ allowed (.save t))) (k true) b d := by
  refine withLoaded_serves (fun _ _ => ⟨⟨hd, hb, rfl⟩, id, .inl (.inl rfl)⟩) ?_ hk
  intro t hj
  rw [if_neg (hd.decided t hj)]
  by_cases hst : t.state = .staged
  · rw [if_neg (not_not.mpr hst)]
    refine serves_clock fun id n _ _ _ => ?_
    split
    · exact serves_done ⟨⟨hd, hb, rfl⟩, fun h => h, .inl (.inl rfl)⟩
    · exact ensures_mono (fun _ h => h) (fun _ _ h => ⟨h.1, fun _ => h.2.1, .inr ⟨_, rfl, h.2.2⟩⟩)
        (rollbackLoaded_serves (m := m) hd hb hj hst rfl)
  · -- the record is decided and only has to be removed
    rw [if_pos hst]
    have hnot : ∀ t', d.journal = some t' → t'.state ≠ .staged := by
      intro t' ht'
      rw [hj] at ht'
      cases ht'
      exact hst
    refine serves_clear (serves_done ⟨⟨?_, ?_, rfl⟩, fun h => h, .inl (.inr hnot)⟩)
    · refine .of_settled hd.leases ?_ rfl
      rcases hd.settles with ⟨config, hh⟩ | hfirst
      · exact .inl ⟨config, hh.network, hh.storable, hh.cover⟩
      · exact .inr hfirst
    · exact .of_unstaged hb.1 (hb.unstaged hnot)

end Operations

/-! ### All interleavings -/

section Interleavings

/-- What is seen of a process from outside: its window and its backend object. -/
def Process.seen (m : Process) : UInt64 × LinuxBackend := (m.1.rollbackWindowNs, m.2)

/-- Whenever nobody holds the lock the files belong together and both objects
agree with the journal; the recovery process never stages anything. -/
def InStep (vs : Actor → UInt64 × LinuxBackend) (d : Disk) : Prop :=
  Coherent d ∧ (∀ i, (vs i).1 = rollbackWindow ∧ Fits (vs i).2 d) ∧
    (vs .recovery).2.staged = false

/-- No stage of the service is refused by the backend. -/
def StageAccepted (i : Actor) (q : ServiceRequest) (r : TransactionResult) : Prop :=
  i = .service → (∃ candidate, q = .stage candidate) → r ≠ .backendError

/-- An operation that does not get the lock reports so and does nothing else. -/
theorem refused_busy {m : TransactionManager} {q : Operation}
    {k : Bool → TransactionProg OperationResult} (hk : q.program m = ask .lock k) :
    k false = .done (TransactionManager.setError { m with lastError := "" } .busy
      "another network operation is in progress") := by
  cases q with
  | stage candidate =>
    simp only [Operation.program, TransactionManager.stage] at hk
    split at hk
    · cases hk
    · cases hk
      rfl
  | confirm => cases hk; rfl
  | rollbackNow => cases hk; rfl
  | rollbackIfNeeded => cases hk; rfl

/-- An operation that asks for the lock first: it is quiet if it is refused, and
what it does above its backend is what it does down to the sub-steps. -/
theorem serve_disciplined {i : Actor} {q : ServiceRequest} {m : Process}
    {k : Bool → TransactionProg OperationResult}
    (hk : (i.operation q).program m.1 = ask .lock k)
    (hbody : ∀ mem d, mem i = m → InStep (Process.seen ∘ mem) d →
      (k true).Ensures ((undisturbed i mem).above implement) (fun _ => True)
        (fun r x => InStep (Function.update (Process.seen ∘ mem) i (r.2.rollbackWindowNs, x.1)) x.2 ∧
          StageAccepted i q r.1) (m.2, d)) :
    ∃ k', crew.program i m q = .call (I := systemCalls) crew.acquire k' ∧
      (∀ a, ¬ crew.granted a → Crew.Quiet Process.seen StageAccepted i m q (k' a)) ∧
      ∀ a, crew.granted a → ∀ mem d, mem i = m → InStep (Process.seen ∘ mem) d →
        (k' a).Ensures (undisturbed i mem) (fun _ => True)
          (Crew.Outcome Process.seen InStep StageAccepted (Process.seen ∘ mem) i q) d := by
  let body (a : Bool) : Prog systemCalls (TransactionResult × Process) :=
    (k a).through implement m.2 >>= fun r => .done (r.1.1, (r.1.2, r.2))
  refine ⟨body, ?_, ?_, ?_⟩
  · show Process.serve m _ = _
    rw [Process.serve, hk]
    rfl
  · -- refused the lock: nothing is touched, and no stage is reported as failed
    intro (a : Bool) (ha : ¬ a = true)
    obtain rfl : a = false := Bool.eq_false_iff.mpr ha
    have hend : body false = .done (.busy,
        (⟨m.1.rollbackWindowNs, m.1.nextId, "another network operation is in progress"⟩, m.2)) := by
      simp only [body, refused_busy hk]
      rfl
    exact ⟨_, _, hend, rfl, fun _ _ => by simp⟩
  · intro (a : Bool) (ha : a = true) mem d hmem hin
    subst ha
    refine ensures_bind (ensures_mono (fun _ h => h) ?_
      (through_ensures (Q := fun r d' =>
        InStep (Function.update (Process.seen ∘ mem) i (r.1.2.rollbackWindowNs, r.2)) d' ∧
          StageAccepted i q r.1.1) (hbody mem d hmem hin)))
    intro r d' hr
    exact ⟨fun hd => hd.elim, hr⟩

/-- The service's own operations leave the recovery process in step. -/
theorem inStep_service {mem : Actor → Process} {d : Disk} {r : OperationResult}
    {x : LinuxBackend × Disk} (hin : InStep (Process.seen ∘ mem) d)
    (ht : Tidy (mem .service).1 r x) :
    InStep (Function.update (Process.seen ∘ mem) .service (r.2.rollbackWindowNs, x.1)) x.2 := by
  obtain ⟨-, hfit, hrec⟩ := hin
  refine ⟨ht.coherent, ?_, by simpa using hrec⟩
  intro i
  cases i with
  | service => exact ⟨ht.window.trans (hfit .service).1, ht.fits⟩
  | recovery =>
    rw [Function.update_of_ne (by simp)]
    exact ⟨(hfit .recovery).1, .of_unstaged (hfit .recovery).2.1 hrec⟩

/-- The recovery process leaves the service in step, as long as it is kept from
finishing what the service's object believes to be staged. -/
theorem inStep_recovery {mem : Actor → Process} {d : Disk} {r : OperationResult}
    {x : LinuxBackend × Disk} (hin : InStep (Process.seen ∘ mem) d)
    (ht : Tidy (mem .recovery).1 r x) (hs : x.1.staged = false)
    (hj : (x.2.journal = d.journal ∨ ∀ t, d.journal = some t → t.state ≠ .staged) ∨
      (mem .service).2.staged = false) :
    InStep (Function.update (Process.seen ∘ mem) .recovery (r.2.rollbackWindowNs, x.1)) x.2 := by
  obtain ⟨-, hfit, -⟩ := hin
  refine ⟨ht.coherent, ?_, by simpa using hs⟩
  intro i
  cases i with
  | service =>
    rw [Function.update_of_ne (by simp)]
    obtain ⟨hw, hb⟩ := hfit .service
    refine ⟨hw, ?_⟩
    rcases hj with (hj | hj) | hj
    · refine ⟨hb.1, fun hst => ?_⟩
      obtain ⟨t, ht, hrest⟩ := hb.2 hst
      exact ⟨t, hj ▸ ht, hrest⟩
    · exact .of_unstaged hb.1 (hb.unstaged hj)
    · exact .of_unstaged hb.1 hj
  | recovery => exact ⟨ht.window.trans (hfit .recovery).1, ht.fits⟩

theorem crew_disciplined : Crew.Disciplined Process.seen InStep StageAccepted crew undisturbed := by
  intro i m q
  right
  cases i with
  | service =>
    -- every operation of the service, by what it leaves behind
    have hserve : ∀ {k : Bool → TransactionProg OperationResult},
        q.operation.program m.1 = ask .lock k →
        (∀ mem d, mem .service = m → InStep (Process.seen ∘ mem) d →
          (k true).Ensures ((undisturbed .service mem).above implement) (fun _ => True)
            (fun r x => Tidy m.1 r x ∧ StageAccepted .service q r.1) (m.2, d)) →
        _ := fun hk hbody => serve_disciplined (i := .service) (q := q) hk (by
          intro mem d hmem hin
          refine ensures_mono (fun _ h => h) ?_ (hbody mem d hmem hin)
          intro r x hr
          refine ⟨inStep_service hin ?_, hr.2⟩
          rw [hmem]
          exact hr.1)
    have hfits : ∀ {mem : Actor → Process} {d}, mem .service = m →
        InStep (Process.seen ∘ mem) d → Fits m.2 d ∧ m.1.rollbackWindowNs = rollbackWindow := by
      intro mem d hmem hin
      obtain ⟨hw, hb⟩ := hin.2.1 .service
      rw [Function.comp_apply, hmem] at hw hb
      exact ⟨hb, hw⟩
    cases q with
    | stage candidate =>
      have hk : ∃ k, m.1.stage candidate.1 = ask .lock k :=
        ⟨_, by rw [TransactionManager.stage, candidate.2.1]; rfl⟩
      obtain ⟨k, hk⟩ := hk
      refine hserve hk ?_
      intro mem d hmem hin
      obtain ⟨hb, hw⟩ := hfits hmem hin
      refine ensures_mono (fun _ h => h) ?_ (stage_serves hin.1 hb candidate.2 hw hk)
      exact fun r x hr => ⟨hr.1, fun _ _ => hr.2⟩
    | confirm =>
      refine hserve rfl ?_
      intro mem d hmem hin
      refine ensures_mono (fun _ h => h) ?_ (confirm_serves hin.1 (hfits hmem hin).1 rfl)
      exact fun r x hr => ⟨hr, by simp [StageAccepted]⟩
    | rollbackNow =>
      refine hserve rfl ?_
      intro mem d hmem hin
      refine ensures_mono (fun _ h => h) ?_ (rollbackNow_serves hin.1 (hfits hmem hin).1 rfl)
      exact fun r x hr => ⟨hr, by simp [StageAccepted]⟩
    | rollbackIfNeeded =>
      refine hserve rfl ?_
      intro mem d hmem hin
      refine ensures_mono (fun _ h => h) ?_ (rollbackIfNeeded_serves hin.1 (hfits hmem hin).1 rfl)
      exact fun r x hr => ⟨hr.1, by simp [StageAccepted]⟩
  | recovery =>
    refine serve_disciplined (i := .recovery) rfl ?_
    intro mem d hmem hin
    obtain ⟨-, hb⟩ := hin.2.1 .recovery
    have hrec := hin.2.2
    rw [Function.comp_apply, hmem] at hb hrec
    refine ensures_mono (fun _ h => h) ?_ (rollbackIfNeeded_serves hin.1 hb rfl)
    rintro r x ⟨ht, hs, hj⟩
    refine ⟨inStep_recovery hin (by rw [hmem]; exact ht) (hs hrec) ?_, by simp [StageAccepted]⟩
    rcases hj with hj | ⟨t, hst, hallowed⟩
    · exact .inl hj
    · exact .inr (hallowed rfl ⟨t, rfl, hst⟩)

end Interleavings

/-! ### Complete operations -/

section Complete

variable {allowed : TransactionCall → Prop} {b : LinuxBackend} {d : Disk} {m : TransactionManager}
  {k : Bool → TransactionProg OperationResult}

/-- What the manager sees of its backend and the files. -/
abbrev managerWorld (allowed : TransactionCall → Prop) : World transactionCalls (LinuxBackend × Disk) :=
  (smoothSystem allowed).above implement

/-- A sub-step of the manager itself, in the world of its backend. -/
theorem runs_own {o : TransactionCall} {a : transactionCalls.Answer o} {d' : Disk}
    (himpl : implement b o = .call (I := systemCalls) (.inl o) fun a => .done (a, b))
    (h : smoothManagerAnswers allowed o d a d') :
    (managerWorld allowed).answers o (b, d) a (b, d') := by
  show (implement b o).Runs (smoothSystem allowed) d (some (a, b)) d'
  rw [himpl]
  exact .call (I := systemCalls) h (.done _ _)

/-- A finished call of the backend, in the world of the manager. -/
theorem runs_backend {o : TransactionCall} {p : BackendProg (transactionCalls.Answer o × LinuxBackend)}
    {a : transactionCalls.Answer o} {b' : LinuxBackend} {d' : Disk} (himpl : implement b o = p.inr)
    (h : p.Runs smoothBackend d (some (a, b')) d') :
    (managerWorld allowed).answers o (b, d) a (b', d') := by
  show (implement b o).Runs (smoothSystem allowed) d (some (a, b')) d'
  rw [himpl]
  exact Runs.inr (W := smoothSystem allowed) h

theorem runs_readCurrent (hb : Equipped b) (hs : Settles d) :
    ∃ config d', (managerWorld allowed).answers .readCurrent (b, d) (some config) (b, d') ∧
      Holds d' config ∧
      d'.journal = d.journal ∧ d'.leases = d.leases := by
  obtain ⟨r, d', ⟨config, rfl, hh, hj, hl⟩, hrun⟩ := (readCurrent_meets hb hs).exists_runs
  refine ⟨config, d', ?_, hh, hj, hl⟩
  exact Runs.bind (Runs.inr (W := smoothSystem allowed) hrun) (.done _ _)

/-- The transaction a stage at boot time 100 journals. -/
def stagedAt100 (id : UInt64) (previous candidate : NetworkConfig) : Transaction :=
  ⟨id, [1], 100, 60000000100, .staged, previous, candidate⟩

/-- A stage up to `apply_stage`, on a free journal. -/
theorem stage_runs_to_apply {candidate : NetworkConfig} (hall : ∀ o, allowed o)
    (hb : Equipped b) (hc : Storable candidate)
    (hw : m.rollbackWindowNs = rollbackWindow) (hs : Settles d) (hj : d.journal = none) :
    ∃ k previous d', m.stage candidate = ask .lock k ∧ Holds d' previous ∧ d'.leases = d.leases ∧
      d'.journal = some (stagedAt100 m.nextId previous candidate) ∧
      ∀ r x, (TransactionManager.applyStaged ⟨m.rollbackWindowNs, m.nextId + 1, ""⟩ previous
          candidate).Runs (managerWorld allowed) (b, d') (some r) x →
        (k true).Runs (managerWorld allowed) (b, d) (some r) x := by
  obtain ⟨previous, d', hread, hh, hj', hl⟩ := runs_readCurrent hb hs
  refine ⟨_, previous, { d' with journal := some (stagedAt100 m.nextId previous candidate) },
    by rw [TransactionManager.stage, hc.1]; rfl, ⟨hh.network, hh.storable, hh.cover⟩, hl, rfl, ?_⟩
  intro r x hrest
  simp only [Bool.not_true, Bool.false_eq_true, if_false]
  refine .call (I := transactionCalls) (a := LoadResult.none) (runs_own rfl ⟨by rw [hj]; rfl, rfl⟩) ?_
  refine .call (I := transactionCalls) (a := some previous) hread ?_
  simp only [hh.storable.1, Bool.not_true, Bool.false_eq_true, if_false]
  refine .call (I := transactionCalls) (a := ([1] : Bytes)) (runs_own rfl ⟨by simp, rfl⟩) ?_
  refine .call (I := transactionCalls) (a := (100 : UInt64)) (runs_own rfl ⟨by decide, rfl⟩) ?_
  -- the deadline does not overflow
  rw [if_neg (by rw [hw]; decide)]
  have hdeadline : (100 : UInt64) + m.rollbackWindowNs = 60000000100 := by rw [hw]; decide
  refine .call (I := transactionCalls) (a := true) (runs_own rfl ⟨hall _, rfl, rfl⟩) ?_
  rw [hdeadline]
  exact hrest

/-- The stage goes through if the object has no transaction of its own. -/
theorem applyStaged_runs_fresh {previous candidate : NetworkConfig} (hb : Equipped b)
    (hs : b.staged = false) (hp : Holds d previous) (hc : Storable candidate)
    (hv : LeasesValid d) :
    ∃ d', (m.applyStaged previous candidate).Runs (managerWorld allowed) (b, d) (some (.ok, m))
        ({ b with staged := true, stagedPrevious := previous, stagedCandidate := candidate }, d') ∧
      StagedFiles d' previous candidate ∧ LeasesValid d' ∧ d'.journal = d.journal := by
  obtain ⟨r, d', ⟨rfl, hf, hv', hj⟩, hrun⟩ := (applyStage_meets hb hs hp hc hv).exists_runs
  refine ⟨d', ?_, hf, hv', hj⟩
  exact .call (I := transactionCalls) (a := true) (runs_backend rfl hrun) (.done _ _)

/-- An object that believes another transaction to be staged refuses, whatever the
rollback that follows may say. -/
theorem applyStaged_runs_stale (previous candidate : NetworkConfig) (hs : b.staged = true) :
    ∃ r x, (m.applyStaged previous candidate).Runs (managerWorld allowed) (b, d) (some r) x ∧
      r.1 = .backendError := by
  have happly :
      (managerWorld allowed).answers (.applyStage previous candidate) (b, d) false (b, d) := by
    refine runs_backend rfl ?_
    rw [applyStage_refused hs]
    exact .done _ _
  obtain ⟨⟨ok, b'⟩, d', hrun⟩ :=
    Prog.exists_runs (W := smoothBackend) smoothAnswers_total (b.rollback previous candidate) d
  cases ok with
  | false =>
    refine ⟨m.setError .backendError "stage failed and rollback is pending", (b', d'),
      .call (I := transactionCalls) (a := false) happly ?_, rfl⟩
    exact .call (I := transactionCalls) (a := false) (runs_backend rfl hrun) (.done _ _)
  | true =>
    refine ⟨m.setError .backendError "network stage failed", (b', { d' with journal := none }),
      .call (I := transactionCalls) (a := false) happly ?_, rfl⟩
    refine .call (I := transactionCalls) (a := true) (runs_backend rfl hrun) ?_
    exact .call (I := transactionCalls) (a := true) (runs_own rfl ⟨rfl, rfl⟩) (.done _ _)

/-- The recovery process after the deadline. -/
theorem rollbackIfNeeded_runs_expired {id : UInt64} {previous candidate : NetworkConfig}
    (hall : ∀ o, allowed o) (hb : Equipped b) (hs : b.staged = false)
    (hf : StagedFiles d previous candidate)
    (hv : LeasesValid d) (hj : d.journal = some (stagedAt100 id previous candidate)) :
    ∃ k d' m', m.rollbackIfNeeded = ask .lock k ∧
      (k true).Runs (managerWorld allowed) (b, d) (some (.expired, m'))
        ({ b with staged := false }, d') ∧
      Holds d' previous ∧ d'.journal = none := by
  have hown : Own b previous candidate := fun h => by rw [hs] at h; cases h
  obtain ⟨r, d₁, ⟨rfl, hh, -, hj₁⟩, hrun⟩ := (rollback_meets hb hown hf hv).exists_runs
  refine ⟨_, { d₁ with journal := none }, ⟨m.rollbackWindowNs, m.nextId, "expired"⟩, rfl, ?_,
    ⟨hh.network, hh.storable, hh.cover⟩, rfl⟩
  refine .call (I := transactionCalls) (a := LoadResult.valid (stagedAt100 id previous candidate))
    (runs_own rfl ⟨by rw [hj]; rfl, rfl⟩) ?_
  refine .call (I := transactionCalls) (a := ([1] : Bytes)) (runs_own rfl ⟨by simp, rfl⟩) ?_
  refine .call (I := transactionCalls) (a := (60000000100 : UInt64))
    (runs_own rfl ⟨by decide, rfl⟩) ?_
  -- the clock has reached the deadline
  rw [if_neg (by simp [stagedAt100])]
  refine .call (I := transactionCalls) (o := .rollback previous candidate) (a := true)
    (runs_backend rfl hrun) ?_
  refine .call (I := transactionCalls) (a := true) (runs_own rfl ⟨hall _, rfl, rfl⟩) ?_
  refine .call (I := transactionCalls) (a := true) (runs_own rfl ⟨rfl, rfl⟩) ?_
  exact .done _ _

/-- A request served while nobody else moves, from its run above the backend. -/
theorem crew_serves {x : Crew.State systemCalls Actor Process ServiceRequest TransactionResult Disk}
    {i : Actor} {q : ServiceRequest} {r : OperationResult} {b' : LinuxBackend} {d' : Disk}
    {W : Actor → (Actor → Process) → World systemCalls Disk} (hW : W i x.mem = smoothSystem allowed)
    (hidle : x.Idle) (hk : (i.operation q).program (x.mem i).1 = ask .lock k)
    (hrun : (k true).Runs (managerWorld allowed) ((x.mem i).2, x.shared) (some r) (b', d')) :
    crew.Run W x [⟨i, q, r.1⟩]
      ⟨d', none, Function.update x.mem i (r.2, b'), fun _ => none⟩ := by
  let body (a : Bool) : Prog systemCalls (TransactionResult × Process) :=
    (k a).through implement (x.mem i).2 >>= fun r => .done (r.1.1, (r.1.2, r.2))
  let yes : systemCalls.Answer crew.acquire := (true : Bool)
  have hyes : crew.granted yes := rfl
  refine Crew.Run.serve (k := body) hidle ?_ hyes ?_
  · show Process.serve (x.mem i) _ = _
    rw [Process.serve, hk]
    rfl
  · rw [hW]
    exact Runs.bind hrun.through (.done _ _)

/-- The default configuration, no transaction and no leases. -/
def cleanDisk : Disk := ⟨none, some (.network {}), fun _ => none, fun _ => none⟩

theorem coherent_cleanDisk : Coherent cleanDisk :=
  .of_settled (by simp [LeasesValid, cleanDisk]) (.inl ⟨{}, rfl, storable_default, rfl⟩) rfl

end Complete

/-! ### Stages of the service -/

/-- **Two rollback actors.**  In every interleaving of the two processes in which
the recovery process never marks a transaction as rolled back while the service's
backend object believes it to be staged: no stage of the service is refused with
a backend error, and whenever the lock is free both objects agree with the
journal. -/
theorem stage_accepted_of_undisturbed {vendor : Bool} {d : Disk} (hd : Coherent d)
    {es : List (Crew.Served Actor ServiceRequest TransactionResult)}
    {x : Crew.State systemCalls Actor Process ServiceRequest TransactionResult Disk}
    (h : crew.Run undisturbed (startedOn vendor d) es x) :
    (∀ e ∈ es, e.process = .service → ∀ candidate, e.request = .stage candidate →
      e.result ≠ .backendError) ∧
    (x.holder = none → ∀ i, (x.mem i).2.staged = true → ∃ t, x.shared.journal = some t ∧
      t.state = .staged ∧ (x.mem i).2.stagedPrevious = t.previous ∧
      (x.mem i).2.stagedCandidate = t.candidate) := by
  have hstart : InStep (Process.seen ∘ (startedOn vendor d).mem) (startedOn vendor d).shared :=
    ⟨hd, fun _ => ⟨rfl, .of_unstaged ⟨rfl, rfl⟩ rfl⟩, rfl⟩
  have hview : ∀ i mem mem', Process.seen ∘ mem = Process.seen ∘ mem' →
      undisturbed i mem = undisturbed i mem' := by
    intro i mem mem' heq
    have hseen : Process.seen (mem .service) = Process.seen (mem' .service) := congrFun heq .service
    have hservice : (mem .service).2 = (mem' .service).2 := (Prod.mk.inj hseen).2
    -- the world depends on the service only through what is seen of it
    rw [undisturbed, undisturbed, hservice]
  obtain ⟨hin, hes⟩ := h.locked_invariant crew_disciplined (fun _ _ _ _ _ ha => ha) hview
    ⟨rfl, fun _ => rfl⟩ hstart
  refine ⟨?_, ?_⟩
  · intro e he hp candidate hq
    exact hes e he hp ⟨candidate, hq⟩
  · intro hfree i hs
    exact ((hin hfree).2.1 i).2.2 hs

/-- A stage on an installed system: afterwards the service's object and the journal
agree on the transaction. -/
theorem stage_accepted_first_stage :
    ∃ es x, crew.Run undisturbed (startedOn true cleanDisk) es x ∧
      ((x.mem .service).2.staged = true ∧ ∃ t, x.shared.journal = some t ∧ t.state = .staged ∧
        (x.mem .service).2.stagedPrevious = t.previous) := by
  have hb : Equipped { vendorEth0 := true, vendorEth1 := true } := ⟨rfl, rfl⟩
  have hservice : ∀ o : TransactionCall, Actor.service = .recovery →
      (∃ t, o = .save t ∧ t.state = .rolledBack) →
      (((startedOn true cleanDisk).mem .service).2).staged = false := fun _ h => (by cases h)
  obtain ⟨k, previous, d₁, hk, hh, hl, hj, hstage⟩ := stage_runs_to_apply (m := {})
    (d := cleanDisk) hservice hb storable_default rfl coherent_cleanDisk.settles rfl
  have hv : LeasesValid d₁ := by
    intro f ls hls
    rw [hl] at hls
    cases hls
  obtain ⟨d₂, happly, -⟩ := applyStaged_runs_fresh hb rfl hh storable_default hv
  have hrun := crew_serves (x := startedOn true cleanDisk) (i := .service)
    (q := .stage ⟨{}, storable_default⟩) (W := undisturbed) rfl ⟨rfl, fun _ => rfl⟩ hk
    (hstage _ _ happly)
  obtain ⟨t, ht, hst, hp, -⟩ :=
    (stage_accepted_of_undisturbed coherent_cleanDisk hrun).2 rfl .service rfl
  exact ⟨_, _, hrun, rfl, t, ht, hst, hp⟩

/-- The service stages, the recovery process rolls the transaction back when its
time is over, and the next stage of the service is refused with a backend error
although the journal is empty and nothing failed. -/
theorem stage_refused_after_recovery :
    ∃ es x y candidate, crew.Run anything (startedOn false cleanDisk) es x ∧ x.Idle ∧
      x.shared.journal = none ∧
      crew.Run anything x [⟨.service, .stage candidate, .backendError⟩] y := by
  let candidate : { c : NetworkConfig // Storable c } := ⟨{}, storable_default⟩
  have hb : Equipped {} := ⟨rfl, rfl⟩
  -- the service stages
  obtain ⟨k₁, previous, d₁, hk₁, hh₁, hl₁, hj₁, hstage⟩ := stage_runs_to_apply (m := {})
    (d := cleanDisk) (fun _ => trivial) hb candidate.2 rfl coherent_cleanDisk.settles rfl
  have hv₁ : LeasesValid d₁ := by
    intro f ls hls
    rw [hl₁] at hls
    cases hls
  let m₂ : TransactionManager :=
    ⟨({} : TransactionManager).rollbackWindowNs, ({} : TransactionManager).nextId + 1, ""⟩
  let b₂ : LinuxBackend :=
    { staged := true, stagedPrevious := previous, stagedCandidate := candidate.1 }
  let mem₂ : Actor → Process := Function.update (startedOn false cleanDisk).mem .service (m₂, b₂)
  obtain ⟨d₂, happly, hf, hv₂, hj₂⟩ := applyStaged_runs_fresh (b := {}) (m := m₂) hb rfl hh₁
    candidate.2 hv₁
  have hrun₁ : crew.Run anything (startedOn false cleanDisk) [⟨.service, .stage candidate, .ok⟩]
      ⟨d₂, none, mem₂, fun _ => none⟩ :=
    crew_serves (x := startedOn false cleanDisk) (i := .service) (q := .stage candidate)
      rfl ⟨rfl, fun _ => rfl⟩ hk₁ (hstage _ _ happly)
  -- the recovery process finds the deadline passed
  obtain ⟨k₂, d₃, m₃, hk₂, hexpired, hh₃, hj₃⟩ := rollbackIfNeeded_runs_expired (m := {})
    (fun _ => trivial) hb rfl hf hv₂ (hj₂.trans hj₁)
  let mem₃ : Actor → Process := Function.update mem₂ .recovery (m₃, {})
  have hrun₂ : crew.Run anything ⟨d₂, none, mem₂, fun _ => none⟩
      [⟨.recovery, .rollbackIfNeeded, .expired⟩] ⟨d₃, none, mem₃, fun _ => none⟩ :=
    crew_serves (x := ⟨d₂, none, mem₂, fun _ => none⟩) (i := .recovery) (q := .rollbackIfNeeded)
      rfl ⟨rfl, fun _ => rfl⟩ hk₂ hexpired
  -- the service stages again, with an object that knows nothing of it
  obtain ⟨k₄, previous', d₄, hk₄, -, -, -, hagain⟩ := stage_runs_to_apply (m := m₂) (b := b₂)
    (d := d₃) (fun _ => trivial) ⟨rfl, rfl⟩ candidate.2 rfl (.inl ⟨_, hh₃⟩) hj₃
  obtain ⟨r, x, hstale, hr⟩ := applyStaged_runs_stale
    (m := ⟨m₂.rollbackWindowNs, m₂.nextId + 1, ""⟩) (b := b₂) (d := d₄) previous' candidate.1 rfl
  have hrun₃ := crew_serves (x := ⟨d₃, none, mem₃, fun _ => none⟩) (i := .service)
    (q := .stage candidate) (W := anything) rfl ⟨rfl, fun _ => rfl⟩ hk₄ (hagain _ _ hstale)
  rw [hr] at hrun₃
  exact ⟨_, _, _, candidate, hrun₁.trans hrun₂, ⟨rfl, fun _ => rfl⟩, hj₃, hrun₃⟩

end Uhf.Network
