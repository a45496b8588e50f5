/-
Crash safety of network transactions.

The world is the journal file and the network, which is settled on one
configuration or an arbitrary mixture.  The backend promises nothing about the
network unless `confirm` or `rollback` returns true, a journal write that fails
or is cut off leaves the old or the new journal, every read may fail, and the
process may die anywhere.  `Safe` is the invariant that ties the three together:
an open transaction remembers the configuration the network was settled on when
it was journalled, and without one the network is settled.
-/
import UhfGateway.Network.Transaction

namespace Uhf.Network

open Effects Effects.Prog

/-- The live network: settled on one configuration, or some mixture. -/
inductive NetworkState
  | settled (config : NetworkConfig)
  | mixture
  deriving DecidableEq

/-- The journal file and the network.  `origin` is a history variable: the
network as it was when a record was last written over a journal without an open
transaction. -/
structure Site where
  journal : Option Transaction
  network : NetworkState
  origin : NetworkState

/-- The journal holds a transaction whose outcome is open. -/
def Site.Open (s : Site) : Prop := ∃ t, s.journal = some t ∧ t.Pending

instance (s : Site) : Decidable s.Open :=
  match h : s.journal with
  | none => isFalse fun ⟨_, ht, _⟩ => by simp [h] at ht
  | some t => decidable_of_iff t.Pending
      ⟨fun hp => ⟨t, h, hp⟩, fun ⟨_, ht, hp⟩ => by rw [h] at ht; cases ht; exact hp⟩

/-- Replace the journal file. -/
def Site.write (s : Site) (journal : Option Transaction) : Site :=
  { s with journal := journal, origin := if s.Open then s.origin else s.network }

/-- Exactly the network may have changed, and it did as `ok` promises. -/
def Site.Moved (s : Site) (ok : Bool) (target : NetworkConfig) (s' : Site) : Prop :=
  ∃ network, s' = { s with network := network } ∧ (ok = true → network = .settled target)

/-- The assumptions on the journal store and on the backend. -/
def siteAnswers : (o : TransactionCall) → Site → transactionCalls.Answer o → Site → Prop
  | .load, s, r, s' => s' = s ∧ LoadResult.Reads s.journal r
  | .save t, s, ok, s' => s' = s.write (some t) ∨ (ok = false ∧ s' = s)
  | .clear, s, ok, s' => s' = s.write none ∨ (ok = false ∧ s' = s)
  | .readCurrent, s, r, s' => s' = s ∧ ∀ c c', s.network = .settled c → r = some c' → c' = c
  | .applyStage _ _, s, _, s' => ∃ network, s' = { s with network := network }
  | .confirm _ candidate, s, ok, s' => s.Moved ok candidate s'
  | .rollback previous _, s, ok, s' => s.Moved ok previous s'
  | .lock, s, _, s' | .bootId, s, _, s' | .boottimeNs, s, _, s' => s' = s

/-- What a sub-step may leave behind when the process dies in the middle of it. -/
def siteCut : TransactionCall → Site → Site → Prop
  | .save t, s, s' => s' = s.write (some t) ∨ s' = s
  | .clear, s, s' => s' = s.write none ∨ s' = s
  | .applyStage _ _, s, s' | .confirm _ _, s, s' | .rollback _ _, s, s' =>
    ∃ network, s' = { s with network := network }
  | .lock, s, s' | .load, s, s' | .readCurrent, s, s' | .bootId, s, s' | .boottimeNs, s, s' =>
    s' = s

/-- The manager's surroundings; the process may die anywhere. -/
def siteWorld : World transactionCalls Site where
  answers := siteAnswers
  cut := siteCut
  dies _ := True

/-- The manager as a process: after a crash it starts with a new memory. -/
def managerService : Service transactionCalls TransactionManager Operation TransactionResult where
  program m q := q.program m
  fresh m := { rollbackWindowNs := m.rollbackWindowNs }

/-- The invariant of the journal. -/
def Safe (s : Site) : Prop :=
  match s.journal with
  | none => ∃ c, s.network = .settled c
  | some t =>
    match t.state with
    | .staged | .confirming => s.origin = .settled t.previous
    | .confirmed => s.network = .settled t.candidate
    | .rolledBack => s.network = .settled t.previous

/-! ### One sub-step at a time -/

section SubSteps

variable {α : Type} {Q : α → Site → Prop} {s : Site}

theorem safe_of_not_open (h : Safe s) (ho : ¬ s.Open) : ∃ c, s.network = .settled c := by
  unfold Safe at h
  cases hj : s.journal with
  | none => simpa [hj] using h
  | some t =>
    have ht : ¬ t.Pending := fun hp => ho ⟨t, hj, hp⟩
    simp only [hj] at h
    cases hs : t.state with
    | staged => exact absurd (.inl hs) ht
    | confirming => exact absurd (.inr hs) ht
    | confirmed => exact ⟨_, by simpa [hs] using h⟩
    | rolledBack => exact ⟨_, by simpa [hs] using h⟩

/-- With a transaction open, the network is free to change. -/
theorem safe_network {t : Transaction} (h : Safe s) (hj : s.journal = some t) (hp : t.Pending)
    (network : NetworkState) : Safe { s with network := network } := by
  unfold Safe at h ⊢
  simp only [hj] at h ⊢
  rcases hp with hs | hs <;> simpa [hs] using h

theorem ensures_save {t : Transaction} {k : Bool → TransactionProg α} (h : Safe s)
    (hw : Safe (s.write (some t)))
    (htrue : (k true).Ensures siteWorld Safe Q (s.write (some t)))
    (hfalse : ∀ s', Safe s' → (k false).Ensures siteWorld Safe Q s') :
    (Prog.call (I := transactionCalls) (.save t) k).Ensures siteWorld Safe Q s := by
  refine ⟨fun _ => h, ?_, ?_⟩
  · rintro s' (rfl | rfl)
    · exact hw
    · exact h
  · rintro (_ | _) s' (rfl | ⟨hok, rfl⟩)
    · exact hfalse _ hw
    · exact hfalse _ h
    · exact htrue
    · cases hok

theorem ensures_clear {k : Bool → TransactionProg α} (h : Safe s)
    (hw : Safe (s.write none))
    (hk : ∀ ok s', Safe s' → (k ok).Ensures siteWorld Safe Q s') :
    (Prog.call (I := transactionCalls) .clear k).Ensures siteWorld Safe Q s := by
  refine ⟨fun _ => h, ?_, ?_⟩
  · rintro s' (rfl | rfl)
    · exact hw
    · exact h
  · rintro ok s' (rfl | ⟨_, rfl⟩)
    · exact hk _ _ hw
    · exact hk _ _ h

theorem ensures_return {a : α} (h : Safe s) :
    (Prog.done a : TransactionProg α).Ensures siteWorld Safe (fun _ => Safe) s :=
  ⟨fun _ => h, h⟩

/-- Sub-steps that leave the world as it is. -/
theorem ensures_quiet {o : TransactionCall} {k : transactionCalls.Answer o → TransactionProg α}
    (ho : o = .lock ∨ o = .bootId ∨ o = .boottimeNs) (h : Safe s)
    (hk : ∀ a, (k a).Ensures siteWorld Safe Q s) :
    (Prog.call (I := transactionCalls) o k).Ensures siteWorld Safe Q s := by
  rcases ho with rfl | rfl | rfl
  all_goals
    refine ⟨fun _ => h, ?_, ?_⟩
    · rintro s' rfl
      exact h
    · rintro a s' rfl
      exact hk a

theorem ensures_load {k : LoadResult → TransactionProg α} (h : Safe s)
    (hnone : s.journal = none → (k .none).Ensures siteWorld Safe Q s)
    (hvalid : ∀ t, s.journal = some t → (k (.valid t)).Ensures siteWorld Safe Q s)
    (hcorrupt : (k .corrupt).Ensures siteWorld Safe Q s)
    (hio : (k .ioError).Ensures siteWorld Safe Q s) :
    (Prog.call (I := transactionCalls) .load k).Ensures siteWorld Safe Q s := by
  refine ⟨fun _ => h, ?_, ?_⟩
  · rintro s' rfl
    exact h
  · rintro r s' ⟨rfl, rfl | rfl | rfl⟩
    · exact hio
    · exact hcorrupt
    · cases hj : s'.journal with
      | none => simpa using hnone hj
      | some t => simpa using hvalid t hj

/-- A network sub-step on an open transaction. -/
theorem ensures_moved {o : TransactionCall} {k : transactionCalls.Answer o → TransactionProg α}
    {t : Transaction} (ho : (∃ p c, o = .applyStage p c) ∨ (∃ p c, o = .confirm p c) ∨
      ∃ p c, o = .rollback p c)
    (h : Safe s) (hj : s.journal = some t) (hp : t.Pending)
    (hk : ∀ a network, siteAnswers o s a { s with network := network } →
      Safe { s with network := network } →
      (k a).Ensures siteWorld Safe Q { s with network := network }) :
    (Prog.call (I := transactionCalls) o k).Ensures siteWorld Safe Q s := by
  have hn := safe_network h hj hp
  refine ⟨fun _ => h, ?_, ?_⟩
  · rcases ho with ⟨p, c, rfl⟩ | ⟨p, c, rfl⟩ | ⟨p, c, rfl⟩ <;>
    · rintro s' ⟨network, rfl⟩
      exact hn network
  · rcases ho with ⟨p, c, rfl⟩ | ⟨p, c, rfl⟩ | ⟨p, c, rfl⟩
    · rintro a s' ⟨network, rfl⟩
      exact hk a network ⟨network, rfl⟩ (hn network)
    · rintro a s' ⟨network, rfl, ha⟩
      exact hk a network ⟨network, rfl, ha⟩ (hn network)
    · rintro a s' ⟨network, rfl, ha⟩
      exact hk a network ⟨network, rfl, ha⟩ (hn network)

end SubSteps

/-! ### The operations -/

section Operations

variable {s : Site} {m : TransactionManager}

theorem rollbackLoaded_safe {t : Transaction} {reason : TransactionResult} (h : Safe s)
    (hj : s.journal = some t) (hp : t.Pending) :
    (m.rollbackLoaded t reason).Ensures siteWorld Safe (fun _ => Safe) s := by
  unfold TransactionManager.rollbackLoaded TransactionManager.recordRolledBack
  refine ensures_moved (.inr (.inr ⟨_, _, rfl⟩)) h hj hp ?_
  rintro ok network ⟨_, hs, hok⟩ h'
  obtain rfl : network = _ := congrArg Site.network hs
  cases ok with
  | false => exact ensures_return h'
  | true =>
    obtain rfl := hok rfl
    refine ensures_save h' (by simp [Safe, Site.write]) ?_ fun s' hs' => ensures_return hs'
    refine ensures_clear (by simp [Safe, Site.write]) ⟨_, rfl⟩ ?_
    intro ok s' hs'
    split
    · exact ensures_return hs'
    · split <;> exact ensures_return hs'

theorem stageUnlocked_safe {candidate : NetworkConfig} (h : Safe s) (ho : ¬ s.Open) :
    (m.stageUnlocked candidate).Ensures siteWorld Safe (fun _ => Safe) s := by
  obtain ⟨c, hc⟩ := safe_of_not_open h ho
  unfold TransactionManager.stageUnlocked
  refine ⟨fun _ => h, by rintro s' rfl; exact h, ?_⟩
  rintro r s' ⟨rfl, hr⟩
  cases r with
  | none => exact ensures_return h
  | some previous =>
    -- the configuration read is the one the network is settled on
    obtain rfl := hr c previous hc rfl
    dsimp only
    split
    · exact ensures_return h
    · refine ensures_quiet (.inr (.inl rfl)) h fun bootId => ?_
      refine ensures_quiet (.inr (.inr rfl)) h fun staged => ?_
      split
      · exact ensures_return h
      · refine ensures_save h (by simp [Safe, Site.write, ho, hc]) ?_ fun s' hs' =>
          ensures_return hs'
        refine ensures_moved (.inl ⟨_, _, rfl⟩) (by simp [Safe, Site.write, ho, hc]) rfl
          (.inl rfl) ?_
        intro ok network _ h'
        cases ok with
        | true => exact ensures_return h'
        | false =>
          refine ensures_moved (.inr (.inr ⟨_, _, rfl⟩)) h' rfl (.inl rfl) ?_
          rintro ok network' ⟨_, hs, hok⟩ h''
          obtain rfl : network' = _ := congrArg Site.network hs
          cases ok with
          | false => exact ensures_return h''
          | true =>
            obtain rfl := hok rfl
            refine ensures_clear h'' ⟨_, rfl⟩ ?_
            intro ok s' hs'
            split <;> exact ensures_return hs'

theorem stage_safe {candidate : NetworkConfig} (h : Safe s) :
    (m.stage candidate).Ensures siteWorld Safe (fun _ => Safe) s := by
  unfold TransactionManager.stage
  split
  · exact ensures_return h
  · refine ensures_quiet (.inl rfl) h fun acquired => ?_
    split
    · exact ensures_return h
    · refine ensures_load h ?_ ?_ (ensures_return h) (ensures_return h)
      · intro hj
        exact stageUnlocked_safe h fun ⟨_, ht, _⟩ => by simp [hj] at ht
      · intro t hj
        dsimp only
        split
        · exact ensures_return h
        · rename_i hp
          refine stageUnlocked_safe h fun ⟨t', ht', hp'⟩ => hp ?_
          rw [hj] at ht'
          cases ht'
          exact hp'

theorem withLoaded_safe {go : TransactionManager → Transaction → TransactionProg OperationResult}
    (h : Safe s)
    (hgo : ∀ m t, s.journal = some t → (go m t).Ensures siteWorld Safe (fun _ => Safe) s) :
    (m.withLoaded go).Ensures siteWorld Safe (fun _ => Safe) s := by
  unfold TransactionManager.withLoaded
  refine ensures_quiet (.inl rfl) h fun acquired => ?_
  split
  · exact ensures_return h
  · exact ensures_load h (fun _ => ensures_return h) (hgo _) (ensures_return h) (ensures_return h)

theorem confirmLoaded_safe {t : Transaction} (h : Safe s) (hj : s.journal = some t)
    (hst : t.state = .staged) :
    (m.confirmLoaded t).Ensures siteWorld Safe (fun _ => Safe) s := by
  have hopen : s.Open := ⟨t, hj, .inl hst⟩
  have horigin : s.origin = .settled t.previous := by simpa [Safe, hj, hst] using h
  have hw : Safe (s.write (some { t with state := .confirming })) := by
    simp [Safe, Site.write, hopen, horigin]
  unfold TransactionManager.confirmLoaded
  refine ensures_save h hw ?_ fun s' hs' => ensures_return hs'
  -- from here on a crash leaves a `confirming` record, which the recovery undoes
  refine ensures_moved (.inr (.inl ⟨_, _, rfl⟩)) hw rfl (.inr rfl) ?_
  rintro ok network ⟨_, hs, hok⟩ h'
  obtain rfl : network = _ := congrArg Site.network hs
  cases ok with
  | false =>
    refine ensures_moved (.inr (.inr ⟨_, _, rfl⟩)) h' rfl (.inr rfl) ?_
    rintro ok network' ⟨_, hs, hok⟩ h''
    obtain rfl : network' = _ := congrArg Site.network hs
    cases ok with
    | false => exact ensures_return h''
    | true =>
      obtain rfl := hok rfl
      refine ensures_clear h'' ⟨_, rfl⟩ ?_
      intro ok s' hs'
      split <;> exact ensures_return hs'
  | true =>
    obtain rfl := hok rfl
    refine ensures_save h' (by simp [Safe, Site.write]) ?_ fun s' hs' => ensures_return hs'
    refine ensures_clear (by simp [Safe, Site.write]) ⟨_, rfl⟩ ?_
    intro ok s' hs'
    split <;> exact ensures_return hs'

theorem confirm_safe (h : Safe s) :
    m.confirm.Ensures siteWorld Safe (fun _ => Safe) s := by
  refine withLoaded_safe h fun m t hj => ?_
  split
  · split <;> exact ensures_return h
  · rename_i hst
    have hst : t.state = .staged := not_not.mp hst
    refine ensures_quiet (.inr (.inl rfl)) h fun bootId => ?_
    refine ensures_quiet (.inr (.inr rfl)) h fun now => ?_
    split
    · exact rollbackLoaded_safe h hj (.inl hst)
    · split
      · exact rollbackLoaded_safe h hj (.inl hst)
      · exact confirmLoaded_safe h hj hst

theorem rollbackNow_safe (h : Safe s) :
    m.rollbackNow.Ensures siteWorld Safe (fun _ => Safe) s := by
  refine withLoaded_safe h fun m t hj => ?_
  split
  · exact ensures_return h
  · rename_i hp
    exact rollbackLoaded_safe h hj (not_not.mp hp)

theorem rollbackIfNeeded_safe (h : Safe s) :
    m.rollbackIfNeeded.Ensures siteWorld Safe (fun _ => Safe) s := by
  refine withLoaded_safe h fun m t hj => ?_
  split
  · rename_i hst
    exact rollbackLoaded_safe h hj (.inr hst)
  · rename_i hnc
    split
    · rename_i hns
      -- a leftover record that is decided: its removal is safe because the network is settled
      have hnp : ¬ s.Open := by
        rintro ⟨t', ht', hp⟩
        rw [hj] at ht'
        cases ht'
        exact hp.elim hns hnc
      obtain ⟨c, hc⟩ := safe_of_not_open h hnp
      refine ensures_clear h ⟨c, hc⟩ ?_
      intro ok s' hs'
      split <;> exact ensures_return hs'
    · rename_i hst
      refine ensures_quiet (.inr (.inl rfl)) h fun bootId => ?_
      refine ensures_quiet (.inr (.inr rfl)) h fun now => ?_
      split
      · exact ensures_return h
      · exact rollbackLoaded_safe h hj (.inl (not_not.mp hst))

/-- A rollback that reports success has restored the journalled configuration
and removed the journal, whatever state the network was in. -/
theorem rollbackLoaded_restores {t : Transaction} {reason : TransactionResult} :
    (m.rollbackLoaded t reason).Ensures siteWorld (fun _ => True) (fun r s' =>
      r.1 = .backendError ∨ r.1 = .storageError ∨
        s'.journal = none ∧ s'.network = .settled t.previous) s := by
  unfold TransactionManager.rollbackLoaded TransactionManager.recordRolledBack
  refine ⟨fun _ => trivial, fun _ _ => trivial, ?_⟩
  rintro ok s₁ ⟨network, rfl, hok⟩
  cases ok with
  | false => exact ⟨fun _ => trivial, .inl rfl⟩
  | true =>
    obtain rfl := hok rfl
    refine ⟨fun _ => trivial, fun _ _ => trivial, ?_⟩
    rintro saved s₂ hsave
    cases saved with
    | false => exact ⟨fun _ => trivial, .inr (.inl rfl)⟩
    | true =>
      obtain rfl : s₂ = _ := hsave.resolve_right (by simp)
      refine ⟨fun _ => trivial, fun _ _ => trivial, ?_⟩
      rintro cleared s₃ hclear
      cases cleared with
      | false => exact ⟨fun _ => trivial, .inr (.inl rfl)⟩
      | true =>
        obtain rfl : s₃ = _ := hclear.resolve_right (by simp)
        by_cases hr : reason = .expired ∨ reason = .bootChanged
        · simp [hr, Ensures, Site.write]
        · simp [hr, Ensures, Site.write]

theorem rollbackNow_restores {t : Transaction} (hj : s.journal = some t) (hp : t.Pending) :
    m.rollbackNow.Ensures siteWorld (fun _ => True) (fun r s' =>
      r.1 = .ok → s'.journal = none ∧ s'.network = .settled t.previous) s := by
  unfold TransactionManager.rollbackNow TransactionManager.withLoaded
  refine ⟨fun _ => trivial, fun _ _ => trivial, ?_⟩
  rintro acquired _ rfl
  cases acquired with
  | false => exact ⟨fun _ => trivial, by simp [TransactionManager.setError]⟩
  | true =>
    refine ⟨fun _ => trivial, fun _ _ => trivial, ?_⟩
    rintro loaded _ ⟨rfl, rfl | rfl | rfl⟩
    · exact ⟨fun _ => trivial, by simp [TransactionManager.setError]⟩
    · exact ⟨fun _ => trivial, by simp [TransactionManager.setError]⟩
    · simp only [hj, Option.elim, hp, not_true_eq_false, if_false]
      refine ensures_mono (fun _ => id) ?_ rollbackLoaded_restores
      rintro r s' (hr | hr | hr) hok
      · simp [hr] at hok
      · simp [hr] at hok
      · exact hr

theorem operation_safe (q : Operation) (h : Safe s) :
    (q.program m).Ensures siteWorld Safe (fun _ => Safe) s := by
  cases q with
  | stage candidate => exact stage_safe h
  | confirm => exact confirm_safe h
  | rollbackNow => exact rollbackNow_safe h
  | rollbackIfNeeded => exact rollbackIfNeeded_safe h

end Operations

/-! ### Whole runs -/

/-- A settled network and no journal. -/
def cleanSite (c : NetworkConfig) : Site := ⟨none, .settled c, .settled c⟩

theorem safe_cleanSite (c : NetworkConfig) : Safe (cleanSite c) := by
  simp [Safe, cleanSite]

theorem run_safe {c : NetworkConfig} {window : UInt64}
    {es : List (Episode Site Operation TransactionResult)} {m : TransactionManager} {s : Site}
    (h : managerService.Run siteWorld noEnv { rollbackWindowNs := window } (cleanSite c) es m s) :
    Safe s :=
  h.invariant (fun _ => Safe) (safe_cleanSite c) (fun _ q _ hs => operation_safe q hs)
    fun _ _ _ _ _ he => he.elim

/-- **Crash safety of network transactions.**  After every sequence of
operations, whatever failed and wherever the process died: without an open
transaction the network is settled, on the candidate if the journal says
confirmed and on the previous configuration if it says rolled back; and while
the network is not settled the journal holds an open transaction whose
`previous` is the configuration the network was settled on when it was
journalled, which a rollback that reports success restores. -/
theorem journal_tracks_network (c : NetworkConfig) (window : UInt64)
    (es : List (Episode Site Operation TransactionResult)) (m : TransactionManager) (s : Site)
    (h : managerService.Run siteWorld noEnv { rollbackWindowNs := window } (cleanSite c) es m s) :
    (s.journal = none → ∃ c', s.network = .settled c') ∧
    (∀ t, s.journal = some t → t.state = .confirmed → s.network = .settled t.candidate) ∧
    (∀ t, s.journal = some t → t.state = .rolledBack → s.network = .settled t.previous) ∧
    (s.network = .mixture → ∃ t, s.journal = some t ∧ t.Pending ∧
      s.origin = .settled t.previous ∧
      ∀ (m' m'' : TransactionManager) s', m'.rollbackNow.Runs siteWorld s (some (.ok, m'')) s' →
        s'.journal = none ∧ s'.network = .settled t.previous) := by
  have hs := run_safe h
  refine ⟨?_, ?_, ?_, ?_⟩
  · intro hj
    simpa [Safe, hj] using hs
  · intro t hj ht
    simpa [Safe, hj, ht] using hs
  · intro t hj ht
    simpa [Safe, hj, ht] using hs
  · intro hmix
    -- only an open transaction can leave a mixture
    have hopen : s.Open := by
      by_contra ho
      obtain ⟨c', hc'⟩ := safe_of_not_open hs ho
      simp [hmix] at hc'
    obtain ⟨t, hj, hp⟩ := hopen
    refine ⟨t, hj, hp, ?_, ?_⟩
    · rcases hp with ht | ht <;> simpa [Safe, hj, ht] using hs
    · intro m' m'' s' hr
      exact (rollbackNow_restores hj hp).sound hr rfl

/-- A run that dies in the middle of `apply_stage` and leaves a mixture. -/
theorem journal_tracks_network_interrupted_stage :
    ∃ es m s, managerService.Run siteWorld noEnv {} (cleanSite {}) es m s ∧
      s.network = .mixture ∧ ∃ t, s.journal = some t ∧ t.Pending ∧
        s.origin = .settled t.previous := by
  have hv := validate_default
  have hrun : (Operation.program {} (.stage {})).Runs siteWorld (cleanSite {}) none
      ⟨some ⟨1, [1], 100, 60000000100, .staged, {}, {}⟩, .mixture, .settled {}⟩ := by
    simp only [Operation.program, TransactionManager.stage, hv, Bool.not_true]
    refine .call (I := transactionCalls) (a := true) rfl ?_
    refine .call (I := transactionCalls) (a := LoadResult.none) ⟨rfl, .inr (.inr rfl)⟩ ?_
    refine .call (I := transactionCalls) (a := some ({} : NetworkConfig)) ⟨rfl, ?_⟩ ?_
    · rintro _ _ h h'
      cases h
      cases h'
      rfl
    simp only [hv, Bool.not_true]
    refine .call (I := transactionCalls) (a := ([1] : Bytes)) rfl ?_
    refine .call (I := transactionCalls) (a := (100 : UInt64)) rfl ?_
    refine .call (I := transactionCalls) (a := true) (.inl rfl) ?_
    -- the process dies inside `apply_stage`
    exact .cut (I := transactionCalls) ⟨_, rfl⟩
  have h := Service.Run.died (P := managerService) (q := .stage {}) (E := noEnv) .start hrun
  obtain ⟨t, hj, hp, ho, _⟩ := (journal_tracks_network _ _ _ _ _ h).2.2.2 rfl
  exact ⟨_, _, _, h, rfl, t, hj, hp, ho⟩

end Uhf.Network
