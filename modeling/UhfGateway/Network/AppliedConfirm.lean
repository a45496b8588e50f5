/-
Which transactions can be confirmed.

`backend.confirm` should be reached only for a candidate that `apply_stage` put
in place and that nobody started to roll back since (`Justified`, read off the
log of sub-steps).  The journal does not record either fact: `staged` is written
before `apply_stage` runs and stays there when a rollback fails, so a later
`confirm` within the window goes ahead (`confirm_of_failed_stage`).

`Desk.exposed` marks the moments in which the journal says `staged` of a
candidate that is not, or no longer, in place.  If no failure and no crash ends
an operation in such a moment (`containedWorld`), every confirmation is
justified.
-/
import UhfGateway.Network.CrashSafety

namespace Uhf.Network

open Effects Effects.Prog

/-! ### The property, on the log of sub-steps -/

/-- A sub-step that writes a new staged transaction. -/
def Stages (e : Event transactionCalls) : Prop := ∃ t, e.op = .save t ∧ t.state = .staged

/-- A sub-step that starts a rollback. -/
def RollsBack (e : Event transactionCalls) : Prop := ∃ p c, e.op = .rollback p c

/-- After the log `before`, confirming `(p, c)` is right: some staged transaction
with these configurations was journalled, `apply_stage` returned true for it, no
other transaction was staged and no rollback started since, and it is the one
that was marked as confirming last. -/
def Justified (before : List (Event transactionCalls)) (p c : NetworkConfig) : Prop :=
  ∃ t rest since, t.state = .staged ∧ t.previous = p ∧ t.candidate = c ∧
    before = rest ++ [⟨.save t, some true⟩, ⟨.applyStage p c, some true⟩] ++ since ++
      [⟨.save { t with state := .confirming }, some true⟩] ∧
    ∀ e ∈ since, ¬ Stages e ∧ ¬ RollsBack e

/-- Every call of `backend.confirm` in the log is justified by what came before. -/
def ConfirmsJustified (log : List (Event transactionCalls)) : Prop :=
  ∀ before p c r after, log = before ++ ⟨.confirm p c, r⟩ :: after → Justified before p c

/-! ### The world -/

/-- The journal, and whether it says `staged` of a candidate that is not, or no
longer, in place. -/
structure Desk where
  journal : Option Transaction
  exposed : Bool
  deriving DecidableEq

/-- The journal holds a transaction in state `staged`. -/
def Desk.staged (d : Desk) : Bool := d.journal.any fun t => t.state = .staged

/-- The journal is replaced; a staged record is exposed until it is applied. -/
def Desk.put (d : Desk) (journal : Option Transaction) : Desk :=
  { d with journal := journal, exposed := journal.any fun t => t.state = .staged }

/-- A rollback has started. -/
def Desk.undoing (d : Desk) : Desk := { d with exposed := d.exposed || d.staged }

/-- Every sub-step may fail; the backend and the clock answer as they like. -/
def deskAnswers : (o : TransactionCall) → Desk → transactionCalls.Answer o → Desk → Prop
  | .load, d, r, d' => d' = d ∧ LoadResult.Reads d.journal r
  | .save t, d, ok, d' => d' = d.put (some t) ∨ (ok = false ∧ d' = d)
  | .clear, d, ok, d' => d' = d.put none ∨ (ok = false ∧ d' = d)
  | .applyStage _ _, d, ok, d' => d' = if ok then { d with exposed := false } else d
  | .rollback _ _, d, _, d' => d' = d.undoing
  | .lock, d, _, d' | .readCurrent, d, _, d' | .confirm _ _, d, _, d' | .bootId, d, _, d'
  | .boottimeNs, d, _, d' => d' = d

/-- What a sub-step leaves behind when the process dies in it. -/
def deskCut : TransactionCall → Desk → Desk → Prop
  | .save t, d, d' => d' = d.put (some t) ∨ d' = d
  | .clear, d, d' => d' = d.put none ∨ d' = d
  | .rollback _ _, d, d' => d' = d.undoing
  | _, d, d' => d' = d

/-- The manager's surroundings, with any failure and a crash anywhere. -/
def deskWorld : World transactionCalls Desk where
  answers := deskAnswers
  cut := deskCut
  dies _ := True

/-- A failure that does not leave an exposed record behind: the save of a staged
record that fails had no effect, the rollback of a staged record succeeds, and
the journal write that ends an exposed moment takes effect. -/
def Contained : (o : TransactionCall) → Desk → transactionCalls.Answer o → Desk → Prop
  | .save t, d, ok, d' =>
    if t.state = .staged then ok = false → d' = d else d.exposed = true → d' = d.put (some t)
  | .clear, d, _, d' => d.exposed = true → d' = d.put none
  | .rollback _ _, d, ok, _ => d.staged = true → ok = true
  | _, _, _, _ => True

/-- The surroundings in which no failure and no crash leaves an exposed record. -/
def containedWorld : World transactionCalls Desk where
  answers o d a d' := deskAnswers o d a d' ∧ Contained o d a d'
  cut o d d' := deskCut o d d' ∧ d'.exposed = false
  dies d := d.exposed = false

/-- No journal and nothing logged. -/
def emptyDesk : Desk × List (Event transactionCalls) := (⟨none, false⟩, [])

/-! ### How the log grows -/

section Log

variable {log : List (Event transactionCalls)} {e : Event transactionCalls}

theorem confirmsJustified_append (h : ConfirmsJustified log)
    (he : ∀ p c, e.op = .confirm p c → Justified log p c) : ConfirmsJustified (log ++ [e]) := by
  intro before p c r after heq
  rcases List.eq_nil_or_concat after with rfl | ⟨after', e', rfl⟩
  · obtain ⟨rfl, he'⟩ := List.append_inj' heq rfl
    obtain rfl := List.singleton_inj.mp he'
    exact he p c rfl
  · rw [List.concat_eq_append, ← List.cons_append, ← List.append_assoc] at heq
    obtain ⟨rfl, -⟩ := List.append_inj' heq rfl
    exact h before p c r after' rfl

/-- The log shows that `t` was applied and has not been touched since. -/
def Ready (t : Transaction) (log : List (Event transactionCalls)) : Prop :=
  ∃ rest since,
    log = rest ++ [⟨.save t, some true⟩, ⟨.applyStage t.previous t.candidate, some true⟩] ++ since ∧
    ∀ e ∈ since, ¬ Stages e ∧ ¬ RollsBack e

theorem Ready.append {t : Transaction} (h : Ready t log) (hs : ¬ Stages e) (hr : ¬ RollsBack e) :
    Ready t (log ++ [e]) := by
  obtain ⟨rest, since, rfl, hsince⟩ := h
  refine ⟨rest, since ++ [e], by simp, fun e' he' => ?_⟩
  rcases List.mem_append.mp he' with h | h
  · exact hsince e' h
  · obtain rfl := List.mem_singleton.mp h
    exact ⟨hs, hr⟩

theorem Ready.justified {t : Transaction} (ht : t.state = .staged) (h : Ready t log) :
    Justified (log ++ [⟨.save { t with state := .confirming }, some true⟩])
      t.previous t.candidate := by
  obtain ⟨rest, since, rfl, hsince⟩ := h
  exact ⟨t, rest, since, ht, rfl, rfl, rfl, hsince⟩

end Log

/-! ### The invariant -/

/-- The state of a run: the journal with its mark, and the log. -/
abbrev DeskLog := Desk × List (Event transactionCalls)

/-- Between operations: a staged record is applied and untouched. -/
def Faithful (x : DeskLog) : Prop :=
  ConfirmsJustified x.2 ∧ x.1.exposed = false ∧
    ∀ t, x.1.journal = some t → t.state = .staged → Ready t x.2

/-- Nothing staged and nothing exposed. -/
def Calm (x : DeskLog) : Prop :=
  ConfirmsJustified x.2 ∧ x.1.exposed = false ∧ x.1.staged = false

/-- A staged record that must not be left behind. -/
def Endangered (x : DeskLog) : Prop :=
  ConfirmsJustified x.2 ∧ x.1.exposed = true ∧ x.1.staged = true

theorem Calm.faithful {x : DeskLog} (h : Calm x) : Faithful x := by
  refine ⟨h.1, h.2.1, fun t hj ht => ?_⟩
  have := h.2.2
  simp [Desk.staged, hj, ht] at this

theorem faithful_emptyDesk : Faithful emptyDesk := by
  refine ⟨?_, rfl, by simp [emptyDesk]⟩
  intro before p c r after h
  simp [emptyDesk] at h

/-! ### One sub-step at a time -/

section SubSteps

variable {α : Type} {Q : α → DeskLog → Prop} {x : DeskLog}

theorem ensures_ends {a : α} (h : Faithful x) :
    (Prog.done a : TransactionProg α).Ensures containedWorld.traced Faithful (fun _ => Faithful) x :=
  ⟨fun _ => h, h⟩

/-- A sub-step that is neither a confirmation, nor a staging, nor a rollback, and
leaves the journal alone. -/
theorem Faithful.append (h : Faithful x) {e : Event transactionCalls}
    (hc : ∀ p c, e.op ≠ .confirm p c) (hs : ¬ Stages e) (hr : ¬ RollsBack e) :
    Faithful (x.1, x.2 ++ [e]) :=
  ⟨confirmsJustified_append h.1 fun p c he => absurd he (hc p c), h.2.1,
    fun t hj ht => (h.2.2 t hj ht).append hs hr⟩

theorem Calm.append (h : Calm x) {e : Event transactionCalls}
    (hc : ∀ p c, e.op = .confirm p c → Justified x.2 p c) : Calm (x.1, x.2 ++ [e]) :=
  ⟨confirmsJustified_append h.1 hc, h.2⟩

theorem ensures_neutral {o : TransactionCall} {k : transactionCalls.Answer o → TransactionProg α}
    (ho : o = .lock ∨ o = .readCurrent ∨ o = .bootId ∨ o = .boottimeNs) (h : Faithful x)
    (hk : ∀ a, Faithful (x.1, x.2 ++ [⟨o, some a⟩]) →
      (k a).Ensures containedWorld.traced Faithful Q (x.1, x.2 ++ [⟨o, some a⟩])) :
    (Prog.call (I := transactionCalls) o k).Ensures containedWorld.traced Faithful Q x := by
  have happ : ∀ r, Faithful (x.1, x.2 ++ [⟨o, r⟩]) := by
    intro r
    apply h.append <;> rcases ho with rfl | rfl | rfl | rfl <;> simp [Stages, RollsBack]
  refine ⟨fun _ => h, ?_, ?_⟩
  · rintro ⟨d, log⟩ ⟨⟨hd, -⟩, hlog⟩
    obtain rfl : log = _ := hlog
    obtain rfl : d = x.1 := by rcases ho with rfl | rfl | rfl | rfl <;> exact hd
    exact happ none
  · rintro a ⟨d, log⟩ ⟨⟨hd, -⟩, hlog⟩
    obtain rfl : log = _ := hlog
    obtain rfl : d = x.1 := by rcases ho with rfl | rfl | rfl | rfl <;> exact hd
    exact hk a (happ (some a))

theorem ensures_loads {k : LoadResult → TransactionProg α} (h : Faithful x)
    (hk : ∀ r x', Faithful x' → x'.1 = x.1 → LoadResult.Reads x.1.journal r →
      (k r).Ensures containedWorld.traced Faithful Q x') :
    (Prog.call (I := transactionCalls) .load k).Ensures containedWorld.traced Faithful Q x := by
  have happ : ∀ r, Faithful (x.1, x.2 ++ [⟨.load, r⟩]) := by
    intro r
    apply h.append <;> simp [Stages, RollsBack]
  refine ⟨fun _ => h, ?_, ?_⟩
  · rintro ⟨d, log⟩ ⟨⟨hd, -⟩, hlog⟩
    obtain rfl : log = _ := hlog
    obtain rfl : d = x.1 := hd
    exact happ none
  · rintro a ⟨d, log⟩ ⟨⟨⟨hd, hread⟩, -⟩, hlog⟩
    obtain rfl : log = _ := hlog
    obtain rfl : d = x.1 := hd
    exact hk a _ (happ (some a)) rfl hread

/-- What a journal write of anything but a staged record leads to. -/
theorem calm_put (h : ConfirmsJustified x.2) {journal : Option Transaction}
    (hj : ∀ t ∈ journal, t.state ≠ .staged) {e : Event transactionCalls}
    (he : ∀ p c, e.op ≠ .confirm p c) : Calm (x.1.put journal, x.2 ++ [e]) := by
  refine ⟨confirmsJustified_append h fun p c hc => absurd hc (he p c), ?_, ?_⟩
  all_goals
    cases journal with
    | none => rfl
    | some t => simpa [Desk.put, Desk.staged] using hj t rfl

theorem ensures_save_other {t : Transaction} {k : Bool → TransactionProg α} (h : Faithful x)
    (ht : t.state ≠ .staged) (hfalse : ∀ x', Faithful x' →
      (k false).Ensures containedWorld.traced Faithful Q x')
    (htrue : Calm (x.1.put (some t), x.2 ++ [⟨.save t, some true⟩]) →
      (k true).Ensures containedWorld.traced Faithful Q
        (x.1.put (some t), x.2 ++ [⟨.save t, some true⟩])) :
    (Prog.call (I := transactionCalls) (.save t) k).Ensures containedWorld.traced Faithful Q x := by
  have hput : ∀ r, Calm (x.1.put (some t), x.2 ++ [⟨.save t, r⟩]) := fun r =>
    calm_put h.1 (by rintro _ ⟨⟩; exact ht) (by simp)
  have hsame : ∀ r, Faithful (x.1, x.2 ++ [⟨.save t, r⟩]) := fun r =>
    h.append (by simp) (by simp [Stages, ht]) (by simp [RollsBack])
  refine ⟨fun _ => h, ?_, ?_⟩
  · rintro ⟨d, log⟩ ⟨⟨hd, -⟩, hlog⟩
    obtain rfl : log = _ := hlog
    rcases hd with hd | hd <;> obtain rfl : d = _ := hd
    · exact (hput none).faithful
    · exact hsame none
  · rintro ok ⟨d, log⟩ ⟨⟨hd, -⟩, hlog⟩
    obtain rfl : log = _ := hlog
    rcases hd with hd | ⟨rfl, hd⟩ <;> obtain rfl : d = _ := hd
    · cases ok with
      | false => exact hfalse _ (hput _).faithful
      | true => exact htrue (hput _)
    · exact hfalse _ (hsame _)

theorem ensures_clears {k : Bool → TransactionProg α} (h : Faithful x)
    (hk : ∀ ok x', Faithful x' → (k ok).Ensures containedWorld.traced Faithful Q x') :
    (Prog.call (I := transactionCalls) .clear k).Ensures containedWorld.traced Faithful Q x := by
  have hput : ∀ r, Faithful (x.1.put none, x.2 ++ [⟨.clear, r⟩]) := fun r =>
    (calm_put h.1 (by simp) (by simp)).faithful
  have hsame : ∀ r, Faithful (x.1, x.2 ++ [⟨.clear, r⟩]) := fun r =>
    h.append (by simp) (by simp [Stages]) (by simp [RollsBack])
  refine ⟨fun _ => h, ?_, ?_⟩
  · rintro ⟨d, log⟩ ⟨⟨hd, -⟩, hlog⟩
    obtain rfl : log = _ := hlog
    rcases hd with hd | hd <;> obtain rfl : d = _ := hd
    · exact hput none
    · exact hsame none
  · rintro ok ⟨d, log⟩ ⟨⟨hd, -⟩, hlog⟩
    obtain rfl : log = _ := hlog
    rcases hd with hd | ⟨-, hd⟩ <;> obtain rfl : d = _ := hd
    · exact hk _ _ (hput _)
    · exact hk _ _ (hsame _)

/-- With nothing staged, a rollback or a justified confirmation is harmless. -/
theorem ensures_backend_calm {o : TransactionCall}
    {k : transactionCalls.Answer o → TransactionProg α}
    (ho : (∃ p c, o = .rollback p c) ∨ ∃ p c, o = .confirm p c ∧ Justified x.2 p c)
    (h : Calm x) (hk : ∀ a x', Calm x' → (k a).Ensures containedWorld.traced Faithful Q x') :
    (Prog.call (I := transactionCalls) o k).Ensures containedWorld.traced Faithful Q x := by
  -- nothing is staged in a calm desk, so a rollback exposes nothing
  have hundo : x.1.undoing = x.1 := by simp [Desk.undoing, h.2.2]
  have happ : ∀ r, Calm (x.1, x.2 ++ [⟨o, r⟩]) := by
    intro r
    apply h.append
    rintro p c hpc
    rcases ho with ⟨p', c', rfl⟩ | ⟨p', c', rfl, hj⟩
    · simp at hpc
    · simp only [TransactionCall.confirm.injEq] at hpc
      obtain ⟨rfl, rfl⟩ := hpc
      exact hj
  refine ⟨fun _ => h.faithful, ?_, ?_⟩
  · rintro ⟨d, log⟩ ⟨⟨hd, -⟩, hlog⟩
    obtain rfl : log = _ := hlog
    obtain rfl : d = x.1 := by
      rcases ho with ⟨p, c, rfl⟩ | ⟨p, c, rfl, -⟩
      · exact (show d = x.1.undoing from hd).trans hundo
      · exact hd
    exact (happ none).faithful
  · rintro a ⟨d, log⟩ ⟨⟨hd, -⟩, hlog⟩
    obtain rfl : log = _ := hlog
    obtain rfl : d = x.1 := by
      rcases ho with ⟨p, c, rfl⟩ | ⟨p, c, rfl, -⟩
      · exact (show d = x.1.undoing from hd).trans hundo
      · exact hd
    exact hk a _ (happ (some a))

/-- The save of a new staged record: it has no effect, or the record is exposed. -/
theorem ensures_stage_save {t : Transaction} {k : Bool → TransactionProg α} (h : Calm x)
    (ht : t.state = .staged)
    (hfalse : ∀ x', Faithful x' → (k false).Ensures containedWorld.traced Faithful Q x')
    (htrue : Endangered (⟨some t, true⟩, x.2 ++ [⟨.save t, some true⟩]) →
      (k true).Ensures containedWorld.traced Faithful Q
        (⟨some t, true⟩, x.2 ++ [⟨.save t, some true⟩])) :
    (Prog.call (I := transactionCalls) (.save t) k).Ensures containedWorld.traced Faithful Q x := by
  have hput : x.1.put (some t) = ⟨some t, true⟩ := by simp [Desk.put, ht]
  have hsame : ∀ r, Faithful (x.1, x.2 ++ [⟨.save t, r⟩]) := fun r =>
    (h.append (by simp)).faithful
  refine ⟨fun _ => h.faithful, ?_, ?_⟩
  · rintro ⟨d, log⟩ ⟨⟨hd, hexp⟩, hlog⟩
    obtain rfl : log = _ := hlog
    rcases hd with hd | hd <;> obtain rfl : d = _ := hd
    · -- a contained world is not cut off while the record is exposed
      simp [hput] at hexp
    · exact hsame none
  · rintro ok ⟨d, log⟩ ⟨⟨hd, hcont⟩, hlog⟩
    obtain rfl : log = _ := hlog
    cases ok with
    | false =>
      have hd' : d = x.1 := by simpa [Contained, ht] using hcont
      obtain rfl := hd'
      exact hfalse _ (hsame _)
    | true =>
      obtain rfl : d = ⟨some t, true⟩ := (hd.resolve_right (by simp)).trans hput
      exact htrue ⟨confirmsJustified_append h.1 (by simp), rfl, by simp [Desk.staged, ht]⟩

/-- `apply_stage` of the record just saved: it is in place, or still exposed. -/
theorem ensures_applyStage {t : Transaction} {log : List (Event transactionCalls)}
    {k : Bool → TransactionProg α}
    (h : Endangered (⟨some t, true⟩, log ++ [⟨.save t, some true⟩]))
    (htrue : ∀ x', Faithful x' → (k true).Ensures containedWorld.traced Faithful Q x')
    (hfalse : ∀ x', Endangered x' → (k false).Ensures containedWorld.traced Faithful Q x') :
    (Prog.call (I := transactionCalls) (.applyStage t.previous t.candidate) k).Ensures
      containedWorld.traced Faithful Q (⟨some t, true⟩, log ++ [⟨.save t, some true⟩]) := by
  refine ⟨fun hd => (by cases hd), ?_, ?_⟩
  · rintro ⟨d, log'⟩ ⟨⟨hd, hexp⟩, -⟩
    obtain rfl : d = _ := hd
    cases hexp
  · rintro ok ⟨d, log'⟩ ⟨⟨hd, -⟩, hlog⟩
    obtain rfl : log' = _ := hlog
    obtain rfl : d = _ := hd
    have hconf := confirmsJustified_append h.1
      (e := ⟨.applyStage t.previous t.candidate, some ok⟩) (by simp)
    cases ok with
    | false => exact hfalse _ ⟨hconf, rfl, h.2.2⟩
    | true =>
      refine htrue _ ⟨hconf, rfl, ?_⟩
      rintro _ ⟨⟩ _
      exact ⟨log, [], by simp, by simp⟩

/-- The rollback of a staged record succeeds but leaves it exposed for now. -/
theorem ensures_rollback_staged {p c : NetworkConfig} {k : Bool → TransactionProg α}
    (h : Faithful x ∨ Endangered x) (hst : x.1.staged = true)
    (hk : ∀ x', Endangered x' → (k true).Ensures containedWorld.traced Faithful Q x') :
    (Prog.call (I := transactionCalls) (.rollback p c) k).Ensures
      containedWorld.traced Faithful Q x := by
  have hundo : x.1.undoing = ⟨x.1.journal, true⟩ := by simp [Desk.undoing, hst]
  have hconf : ConfirmsJustified x.2 := h.elim (·.1) (·.1)
  refine ⟨?_, ?_, ?_⟩
  · intro hd
    rcases h with h | h
    · exact h
    · exact absurd (show x.1.exposed = false from hd) (by simp [h.2.1])
  · -- no cut here: the record is exposed until the journal says otherwise
    rintro ⟨d, log⟩ ⟨⟨hd, hexp⟩, -⟩
    obtain rfl : d = _ := hd
    simp [hundo] at hexp
  · rintro ok ⟨d, log⟩ ⟨⟨hd, hok⟩, hlog⟩
    obtain rfl : log = _ := hlog
    obtain rfl : d = _ := hd
    obtain rfl := hok hst
    refine hk _ ⟨confirmsJustified_append hconf (by simp), ?_, ?_⟩
    · simp [hundo]
    · simpa [hundo, Desk.staged] using hst

/-- The journal write that ends an exposed moment. -/
theorem ensures_endangered {o : TransactionCall}
    {k : transactionCalls.Answer o → TransactionProg α}
    (ho : (∃ t, o = .save t ∧ t.state ≠ .staged) ∨ o = .clear) (h : Endangered x)
    (hk : ∀ a x', Calm x' → (k a).Ensures containedWorld.traced Faithful Q x') :
    (Prog.call (I := transactionCalls) o k).Ensures containedWorld.traced Faithful Q x := by
  -- while the record is exposed the write takes effect, answered or cut off
  obtain ⟨journal, hjournal, hop⟩ : ∃ journal : Option Transaction,
      (∀ t ∈ journal, t.state ≠ .staged) ∧
      (∀ a d', containedWorld.answers o x.1 a d' → d' = x.1.put journal) ∧
      (∀ d', containedWorld.cut o x.1 d' → d' = x.1.put journal) := by
    rcases ho with ⟨t, rfl, ht⟩ | rfl
    · refine ⟨some t, by rintro _ ⟨⟩; exact ht, ?_, ?_⟩
      · rintro a d' ⟨-, hcont⟩
        simp only [Contained, ht, if_false] at hcont
        exact hcont h.2.1
      · rintro d' ⟨hd | hd, hexp⟩
        · exact hd
        · rw [show d' = x.1 from hd, h.2.1] at hexp
          cases hexp
    · refine ⟨none, by simp, ?_, ?_⟩
      · rintro a d' ⟨-, hcont⟩
        exact hcont h.2.1
      · rintro d' ⟨hd | hd, hexp⟩
        · exact hd
        · rw [show d' = x.1 from hd, h.2.1] at hexp
          cases hexp
  have happ : ∀ r, Calm (x.1.put journal, x.2 ++ [⟨o, r⟩]) := fun r =>
    calm_put h.1 hjournal (by rcases ho with ⟨t, rfl, -⟩ | rfl <;> simp)
  refine ⟨fun hd => absurd (show x.1.exposed = false from hd) (by simp [h.2.1]), ?_, ?_⟩
  · rintro ⟨d, log⟩ ⟨hd, hlog⟩
    obtain rfl : log = _ := hlog
    obtain rfl := hop.2 d hd
    exact (happ none).faithful
  · rintro a ⟨d, log⟩ ⟨hd, hlog⟩
    obtain rfl : log = _ := hlog
    obtain rfl := hop.1 a d hd
    exact hk a _ (happ _)

end SubSteps

/-! ### The operations -/

section Operations

variable {x : DeskLog} {m : TransactionManager}

theorem recordRolledBack_faithful {t : Transaction} {reason : TransactionResult}
    (h : Calm x ∨ Endangered x) :
    (m.recordRolledBack t reason).Ensures containedWorld.traced Faithful (fun _ => Faithful) x := by
  have hclear : ∀ y (saved : Bool), Faithful y →
      (if !saved then
        .done (m.setError .storageError "rolled back network transaction cannot be cleared")
      else
        ask .clear fun cleared =>
        if !cleared then
          .done (m.setError .storageError "rolled back network transaction cannot be cleared")
        else if reason = .expired ∨ reason = .bootChanged then
          .done (m.setError reason (transactionResultName reason))
        else
          .done (.ok, m)).Ensures containedWorld.traced Faithful (fun _ => Faithful) y := by
    intro y saved hy
    split
    · exact ensures_ends hy
    · refine ensures_clears hy fun cleared z hz => ?_
      split
      · exact ensures_ends hz
      · split <;> exact ensures_ends hz
  rcases h with h | h
  · exact ensures_save_other h.faithful (by simp) (fun y hy => hclear y false hy)
      fun hy => hclear _ true hy.faithful
  · exact ensures_endangered (.inl ⟨_, rfl, by simp⟩) h fun saved y hy =>
      hclear y saved hy.faithful

theorem rollbackLoaded_faithful {t : Transaction} {reason : TransactionResult} (h : Faithful x)
    (hj : x.1.journal = some t) (hp : t.Pending) :
    (m.rollbackLoaded t reason).Ensures containedWorld.traced Faithful (fun _ => Faithful) x := by
  unfold TransactionManager.rollbackLoaded
  rcases hp with ht | ht
  · exact ensures_rollback_staged (.inl h) (by simp [Desk.staged, hj, ht]) fun y hy =>
      recordRolledBack_faithful (.inr hy)
  · have hcalm : Calm x := ⟨h.1, h.2.1, by simp [Desk.staged, hj, ht]⟩
    refine ensures_backend_calm (.inl ⟨_, _, rfl⟩) hcalm fun ok y hy => ?_
    cases ok with
    | false => exact ensures_ends hy.faithful
    | true => exact recordRolledBack_faithful (.inl hy)

theorem stageUnlocked_faithful {candidate : NetworkConfig} (h : Faithful x)
    (hst : x.1.staged = false) :
    (m.stageUnlocked candidate).Ensures containedWorld.traced Faithful (fun _ => Faithful) x := by
  unfold TransactionManager.stageUnlocked
  refine ensures_neutral (.inr (.inl rfl)) h fun previous h₁ => ?_
  cases previous with
  | none => exact ensures_ends h₁
  | some previous =>
    dsimp only
    split
    · exact ensures_ends h₁
    · refine ensures_neutral (.inr (.inr (.inl rfl))) h₁ fun bootId h₂ => ?_
      refine ensures_neutral (.inr (.inr (.inr rfl))) h₂ fun staged h₃ => ?_
      split
      · exact ensures_ends h₃
      · refine ensures_stage_save ⟨h₃.1, h₃.2.1, hst⟩ rfl (fun y hy => ensures_ends hy) fun h₄ => ?_
        refine ensures_applyStage h₄ (fun y hy => ensures_ends hy) fun y hy => ?_
        refine ensures_rollback_staged (.inr hy) hy.2.2 fun z hz => ?_
        refine ensures_endangered (.inr rfl) hz fun cleared w hw => ?_
        split <;> exact ensures_ends hw.faithful

theorem stage_faithful {candidate : NetworkConfig} (h : Faithful x) :
    (m.stage candidate).Ensures containedWorld.traced Faithful (fun _ => Faithful) x := by
  unfold TransactionManager.stage
  split
  · exact ensures_ends h
  · refine ensures_neutral (.inl rfl) h fun acquired h₁ => ?_
    split
    · exact ensures_ends h₁
    · refine ensures_loads h₁ ?_
      rintro r ⟨d, log⟩ h₂ hd (rfl | rfl | rfl)
      · exact ensures_ends h₂
      · exact ensures_ends h₂
      · obtain rfl : d = x.1 := hd
        cases hj : x.1.journal with
        | none => exact stageUnlocked_faithful h₂ (by simp [Desk.staged, hj])
        | some t =>
          dsimp only [Option.elim]
          split
          · exact ensures_ends h₂
          · rename_i hp
            refine stageUnlocked_faithful h₂ ?_
            simpa [Desk.staged, hj] using fun ht => hp (.inl ht)

theorem withLoaded_faithful
    {go : TransactionManager → Transaction → TransactionProg OperationResult} (h : Faithful x)
    (hgo : ∀ m t x', Faithful x' → x'.1.journal = some t →
      (go m t).Ensures containedWorld.traced Faithful (fun _ => Faithful) x') :
    (m.withLoaded go).Ensures containedWorld.traced Faithful (fun _ => Faithful) x := by
  unfold TransactionManager.withLoaded
  refine ensures_neutral (.inl rfl) h fun acquired h₁ => ?_
  split
  · exact ensures_ends h₁
  · refine ensures_loads h₁ ?_
    rintro r ⟨d, log⟩ h₂ hd (rfl | rfl | rfl)
    · exact ensures_ends h₂
    · exact ensures_ends h₂
    · obtain rfl : d = x.1 := hd
      cases hj : x.1.journal with
      | none => exact ensures_ends h₂
      | some t => exact hgo _ t _ h₂ hj

theorem confirmLoaded_faithful {t : Transaction} (h : Faithful x) (hj : x.1.journal = some t)
    (ht : t.state = .staged) :
    (m.confirmLoaded t).Ensures containedWorld.traced Faithful (fun _ => Faithful) x := by
  unfold TransactionManager.confirmLoaded
  refine ensures_save_other h (by simp) (fun y hy => ensures_ends hy) fun h₁ => ?_
  have hjust := (h.2.2 t hj ht).justified ht
  refine ensures_backend_calm (.inr ⟨_, _, rfl, hjust⟩) h₁ fun confirmed y hy => ?_
  cases confirmed with
  | false =>
    refine ensures_backend_calm (.inl ⟨_, _, rfl⟩) hy fun rolledBack z hz => ?_
    dsimp only
    split
    · exact ensures_ends hz.faithful
    · refine ensures_clears hz.faithful fun cleared w hw => ?_
      split <;> exact ensures_ends hw
  | true =>
    refine ensures_save_other hy.faithful (by simp) (fun z hz => ensures_ends hz) fun hz => ?_
    refine ensures_clears hz.faithful fun cleared w hw => ?_
    split <;> exact ensures_ends hw

theorem confirm_faithful (h : Faithful x) :
    m.confirm.Ensures containedWorld.traced Faithful (fun _ => Faithful) x := by
  refine withLoaded_faithful h fun m t x' h' hj => ?_
  split
  · split <;> exact ensures_ends h'
  · rename_i hst
    have ht : t.state = .staged := not_not.mp hst
    refine ensures_neutral (.inr (.inr (.inl rfl))) h' fun bootId h₁ => ?_
    refine ensures_neutral (.inr (.inr (.inr rfl))) h₁ fun now h₂ => ?_
    split
    · exact rollbackLoaded_faithful h₂ hj (.inl ht)
    · split
      · exact rollbackLoaded_faithful h₂ hj (.inl ht)
      · exact confirmLoaded_faithful h₂ hj ht

theorem rollbackNow_faithful (h : Faithful x) :
    m.rollbackNow.Ensures containedWorld.traced Faithful (fun _ => Faithful) x := by
  refine withLoaded_faithful h fun m t x' h' hj => ?_
  split
  · exact ensures_ends h'
  · rename_i hp
    exact rollbackLoaded_faithful h' hj (not_not.mp hp)

theorem rollbackIfNeeded_faithful (h : Faithful x) :
    m.rollbackIfNeeded.Ensures containedWorld.traced Faithful (fun _ => Faithful) x := by
  refine withLoaded_faithful h fun m t x' h' hj => ?_
  split
  · rename_i ht
    exact rollbackLoaded_faithful h' hj (.inr ht)
  · split
    · refine ensures_clears h' fun cleared y hy => ?_
      split <;> exact ensures_ends hy
    · rename_i hst
      refine ensures_neutral (.inr (.inr (.inl rfl))) h' fun bootId h₁ => ?_
      refine ensures_neutral (.inr (.inr (.inr rfl))) h₁ fun now h₂ => ?_
      split
      · exact ensures_ends h₂
      · exact rollbackLoaded_faithful h₂ hj (.inl (not_not.mp hst))

theorem operation_faithful (q : Operation) (h : Faithful x) :
    (q.program m).Ensures containedWorld.traced Faithful (fun _ => Faithful) x := by
  cases q with
  | stage candidate => exact stage_faithful h
  | confirm => exact confirm_faithful h
  | rollbackNow => exact rollbackNow_faithful h
  | rollbackIfNeeded => exact rollbackIfNeeded_faithful h

end Operations

/-! ### Whole runs -/

/-- The record of the built-in configuration staged at boot time 100. -/
def sampleRecord : Transaction := ⟨1, [1], 100, 60000000100, .staged, {}, {}⟩

/-- The sub-steps of a stage of `sampleRecord`, up to the call of `apply_stage`. -/
def sampleStageLog : List (Event transactionCalls) :=
  [⟨.lock, some true⟩, ⟨.load, some LoadResult.none⟩,
    ⟨.readCurrent, some (some ({} : NetworkConfig))⟩, ⟨.bootId, some ([1] : Bytes)⟩,
    ⟨.boottimeNs, some (100 : UInt64)⟩, ⟨.save sampleRecord, some true⟩]

/-- The sub-steps of a confirm at boot time 200, up to the call of the backend. -/
def sampleConfirmLog : List (Event transactionCalls) :=
  [⟨.lock, some true⟩, ⟨.load, some (LoadResult.valid sampleRecord)⟩,
    ⟨.bootId, some ([1] : Bytes)⟩, ⟨.boottimeNs, some (200 : UInt64)⟩,
    ⟨.save { sampleRecord with state := .confirming }, some true⟩]

/-- **Only an applied candidate is confirmed**, in every run in which no failure
and no crash leaves behind a staged record that is not in place. -/
theorem confirms_justified_of_contained (window : UInt64)
    (es : List (Episode DeskLog Operation TransactionResult)) (m : TransactionManager)
    (x : DeskLog)
    (h : managerService.Run containedWorld.traced noEnv { rollbackWindowNs := window } emptyDesk
      es m x) : ConfirmsJustified x.2 :=
  (h.invariant (fun _ => Faithful) faithful_emptyDesk (fun _ q _ hx => operation_faithful q hx)
    fun _ _ _ _ _ he => he.elim).1

/-- A stage that succeeds and a confirm that dies in `backend.confirm`. -/
theorem confirms_justified_of_contained_sample :
    ∃ es m x, managerService.Run containedWorld.traced noEnv {} emptyDesk es m x ∧
      (⟨.confirm {} {}, none⟩ : Event transactionCalls) ∈ x.2 ∧ ConfirmsJustified x.2 := by
  have hv := validate_default
  have hstage : (Operation.program {} (.stage {})).Runs containedWorld.traced emptyDesk
      (some (.ok, { nextId := 2 }))
      (⟨some sampleRecord, false⟩, sampleStageLog ++ [⟨.applyStage {} {}, some true⟩]) := by
    simp only [Operation.program, TransactionManager.stage, hv, Bool.not_true]
    refine .logged true ⟨rfl, trivial⟩ ?_
    refine .logged LoadResult.none ⟨⟨rfl, .inr (.inr rfl)⟩, trivial⟩ ?_
    refine .logged (some ({} : NetworkConfig)) ⟨rfl, trivial⟩ ?_
    simp only [hv, Bool.not_true]
    refine .logged ([1] : Bytes) ⟨rfl, trivial⟩ ?_
    refine .logged (100 : UInt64) ⟨rfl, trivial⟩ ?_
    refine .logged true ⟨.inl rfl, by simp [Contained]⟩ ?_
    refine .logged true ⟨rfl, trivial⟩ ?_
    exact .done _ _
  have hconfirm : (Operation.program { nextId := 2 } .confirm).Runs containedWorld.traced
      (⟨some sampleRecord, false⟩, sampleStageLog ++ [⟨.applyStage {} {}, some true⟩]) none
      (⟨some { sampleRecord with state := .confirming }, false⟩, (sampleStageLog ++
        [⟨.applyStage {} {}, some true⟩] ++ sampleConfirmLog) ++ [⟨.confirm {} {}, none⟩]) := by
    refine .logged true ⟨rfl, trivial⟩ ?_
    refine .logged (LoadResult.valid sampleRecord) ⟨⟨rfl, .inr (.inr rfl)⟩, trivial⟩ ?_
    refine .logged ([1] : Bytes) ⟨rfl, trivial⟩ ?_
    refine .logged (200 : UInt64) ⟨rfl, trivial⟩ ?_
    refine .logged true ⟨.inl rfl, by simp [Contained]⟩ ?_
    exact .cutLogged ⟨rfl, rfl⟩
  have hrun := Service.Run.died (P := managerService) (q := .confirm) (E := noEnv)
    (.returned (q := .stage {}) .start hstage) hconfirm
  exact ⟨_, _, _, hrun, by simp, confirms_justified_of_contained _ _ _ _ hrun⟩

/-- A stage whose `apply_stage` and rollback both fail, in any world that lets
them, and then a confirm that dies in `backend.confirm`. -/
theorem confirm_of_failed_stage :
    ¬ ∀ es m x, managerService.Run deskWorld.traced noEnv {} emptyDesk es m x →
      ConfirmsJustified x.2 := by
  intro hall
  have hv := validate_default
  have hstage : (Operation.program {} (.stage {})).Runs deskWorld.traced emptyDesk
      (some (.backendError, { nextId := 2, lastError := "stage failed and rollback is pending" }))
      (⟨some sampleRecord, true⟩, sampleStageLog ++ [⟨.applyStage {} {}, some false⟩,
        ⟨.rollback {} {}, some false⟩]) := by
    simp only [Operation.program, TransactionManager.stage, hv, Bool.not_true]
    refine .logged true rfl ?_
    refine .logged LoadResult.none ⟨rfl, .inr (.inr rfl)⟩ ?_
    refine .logged (some ({} : NetworkConfig)) rfl ?_
    simp only [hv, Bool.not_true]
    refine .logged ([1] : Bytes) rfl ?_
    refine .logged (100 : UInt64) rfl ?_
    refine .logged true (.inl rfl) ?_
    -- `apply_stage` fails, and so does the rollback: the staged record stays behind
    refine .logged false rfl ?_
    refine .logged false rfl ?_
    exact .done _ _
  have hconfirm : (Operation.program
      { nextId := 2, lastError := "stage failed and rollback is pending" } .confirm).Runs
      deskWorld.traced (⟨some sampleRecord, true⟩, sampleStageLog ++
        [⟨.applyStage {} {}, some false⟩, ⟨.rollback {} {}, some false⟩]) none
      (⟨some { sampleRecord with state := .confirming }, false⟩, (sampleStageLog ++
        [⟨.applyStage {} {}, some false⟩, ⟨.rollback {} {}, some false⟩] ++ sampleConfirmLog) ++
          [⟨.confirm {} {}, none⟩]) := by
    refine .logged true rfl ?_
    refine .logged (LoadResult.valid sampleRecord) ⟨rfl, .inr (.inr rfl)⟩ ?_
    refine .logged ([1] : Bytes) rfl ?_
    refine .logged (200 : UInt64) rfl ?_
    refine .logged true (.inl rfl) ?_
    exact .cutLogged rfl
  have hrun := Service.Run.died (P := managerService) (q := .confirm) (E := noEnv)
    (.returned (q := .stage {}) .start hstage) hconfirm
  obtain ⟨t, rest, since, -, -, -, heq, -⟩ := hall _ _ _ hrun _ _ _ _ [] rfl
  -- a justified confirm would need an `apply_stage` that succeeded
  have hmem : (⟨.applyStage {} {}, some true⟩ : Event transactionCalls) ∈
      sampleStageLog ++ [⟨.applyStage {} {}, some false⟩, ⟨.rollback {} {}, some false⟩] ++
        sampleConfirmLog := by
    rw [heq]
    simp
  simp [sampleStageLog, sampleConfirmLog] at hmem

end Uhf.Network
