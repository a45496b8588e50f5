/-
The rollback window of a transaction, over whole runs.

The machine boots again and again; `bootIdOf` gives each boot its id and never
repeats one.  Within a boot the clock only moves forward, and a reading may fail:
the boot id then reads as empty and the clock as zero.  `Machine.serial` counts
the staged records that reached the journal, so that the record in the journal is
always number `serial`.

* `operation_accounted` — what one operation may do at every moment (`Progress`)
  and what its result means (`Returned`);
* `run_settled`, `run_lapsed` — a settled record is never rolled back, a lapsed
  one never confirmed, from any state of a run on;
* `rollback_window` — the rules of the window over whole runs.
-/
import UhfGateway.Network.CrashSafety

namespace Uhf.Network

open Effects Effects.Prog

/-! ### The world -/

/-- The journal, the boot the machine is in and its boot clock. -/
structure Machine where
  journal : Option Transaction
  boot : Nat
  clock : UInt64
  serial : Nat

/-- The sub-steps performed, with their answers. -/
abbrev Log := List (Event transactionCalls)

/-- Replace the journal file. -/
def Machine.put (s : Machine) (journal : Option Transaction) : Machine :=
  { s with
    journal := journal
    serial := if journal.any (fun t => t.state = .staged) then s.serial + 1 else s.serial }

/-- The journal holds a transaction whose outcome is open. -/
def Machine.Open (s : Machine) : Prop := ∃ t, s.journal = some t ∧ t.Pending

section World

variable (bootIdOf : Nat → Bytes)

/-- The answers of the sub-steps; the backend may do anything. -/
def machineAnswers : (o : TransactionCall) → Machine → transactionCalls.Answer o → Machine → Prop
  | .load, s, r, s' => s' = s ∧ LoadResult.Reads s.journal r
  | .save t, s, ok, s' => s' = s.put (some t) ∨ (ok = false ∧ s' = s)
  | .clear, s, ok, s' => s' = s.put none ∨ (ok = false ∧ s' = s)
  | .bootId, s, b, s' => s' = s ∧ (b = bootIdOf s.boot ∨ b = [])
  | .boottimeNs, s, n, s' =>
    ∃ now, s.clock ≤ now ∧ s' = { s with clock := now } ∧ (n = now ∨ n = 0)
  | .lock, s, _, s' | .readCurrent, s, _, s' | .applyStage _ _, s, _, s'
  | .confirm _ _, s, _, s' | .rollback _ _, s, _, s' => s' = s

/-- What a sub-step leaves behind when the process dies in it. -/
def machineCut : TransactionCall → Machine → Machine → Prop
  | .save t, s, s' => s' = s.put (some t) ∨ s' = s
  | .clear, s, s' => s' = s.put none ∨ s' = s
  | _, s, s' => s' = s

/-- The manager's surroundings on such a machine. -/
def machineWorld : World transactionCalls Machine where
  answers := machineAnswers bootIdOf
  cut := machineCut
  dies _ := True

end World

/-- Between two operations time passes, the machine boots again, or another
process with a manager of its own takes its turn: the file lock serialises them. -/
inductive Passes : TransactionManager → Machine × Log → TransactionManager → Machine × Log → Prop
  | time {m : TransactionManager} {s : Machine} {log : Log} {now : UInt64} (h : s.clock ≤ now) :
      Passes m (s, log) m ({ s with clock := now }, log)
  | reboot {m : TransactionManager} {s : Machine} {log : Log} {now : UInt64} :
      Passes m (s, log) { rollbackWindowNs := m.rollbackWindowNs }
        ({ s with boot := s.boot + 1, clock := now }, log)
  | turn {m m' : TransactionManager} {x : Machine × Log}
      (h : m'.rollbackWindowNs = m.rollbackWindowNs) : Passes m x m' x

/-- One served operation on such a machine. -/
abbrev MachineEpisode := Episode (Machine × Log) Operation TransactionResult

/-- The sub-steps of one operation. -/
def events (e : MachineEpisode) : Log := e.after.2.drop e.before.2.length

/-- A machine without a journal. -/
def blankMachine (boot : Nat) (clock : UInt64) : Machine × Log := (⟨none, boot, clock, 0⟩, [])

/-! ### What one operation may do -/

section Account

variable (bootIdOf : Nat → Bytes) (window : UInt64)

/-- Every journalled transaction has a deadline one window after its staging and
the id of a boot that has begun. -/
def WellTimed (s : Machine) : Prop :=
  ∀ t, s.journal = some t →
    t.deadlineBoottimeNs.toNat = t.stagedBoottimeNs.toNat + window.toNat ∧
    t.bootId ≠ [] ∧ ∃ b ≤ s.boot, t.bootId = bootIdOf b

/-- How an operation may change the machine: it moves the record in the journal
on without reopening it, or it writes a new one over a journal with none open. -/
structure Evolves (s s' : Machine) : Prop where
  boot : s'.boot = s.boot
  clock : s.clock ≤ s'.clock
  journal : (s'.serial = s.serial ∧ ∀ t', s'.journal = some t' →
      ∃ t, s.journal = some t ∧ t' = { t with state := t'.state } ∧
        (t'.state = .staged → t.state = .staged) ∧ (t'.Pending → t.Pending)) ∨
    (s'.serial = s.serial + 1 ∧ ¬ s.Open)

/-- The record in the journal may be confirmed: it is staged, of this boot, and
the clock was read as a time within the window. -/
def InWindow (s : Machine) (new : Log) (p c : NetworkConfig) : Prop :=
  ∃ t now, s.journal = some t ∧ t.state = .staged ∧ t.previous = p ∧ t.candidate = c ∧
    t.bootId = bootIdOf s.boot ∧ ⟨.boottimeNs, some now⟩ ∈ new ∧
    0 < now ∧ now < t.deadlineBoottimeNs

/-- What holds at every moment of operation `q`, begun in `s`. -/
structure Progress (q : Operation) (s : Machine) (x : Machine × Log) : Prop where
  evolves : Evolves s x.1
  timed : WellTimed bootIdOf window x.1
  confirms : ∀ p c r, ⟨.confirm p c, r⟩ ∈ x.2 → q = .confirm ∧ InWindow bootIdOf s x.2 p c
  rollbacks : ∀ p c r, ⟨.rollback p c, r⟩ ∈ x.2 →
    ((∃ t, s.journal = some t ∧ t.Pending ∧ t.previous = p ∧ t.candidate = c) ∧
        x.1.serial = s.serial ∧ ∀ candidate, q ≠ .stage candidate) ∨
      ((∃ candidate, q = .stage candidate) ∧ x.1.serial = s.serial + 1)

/-- The readings of a `confirm` or `rollback_if_needed` that found the staged
transaction `t`, and that it rolled back if they do not place it in its window. -/
def RolledBackIfLapsed (t : Transaction) (new : Log) : Prop :=
  ∃ b n, ⟨.bootId, some b⟩ ∈ new ∧ ⟨.boottimeNs, some n⟩ ∈ new ∧
    (n = 0 ∨ t.deadlineBoottimeNs ≤ n ∨ b ≠ t.bootId →
      ∃ r, ⟨.rollback t.previous t.candidate, some r⟩ ∈ new)

/-- What holds when operation `q` returns `r`. -/
structure Returned (q : Operation) (m : TransactionManager) (s : Machine) (r : OperationResult)
    (x : Machine × Log) : Prop where
  window : r.2.rollbackWindowNs = m.rollbackWindowNs
  confirmed : q = .confirm → r.1 = .ok → x.1.journal = none ∧ x.1.serial = s.serial ∧
    ∃ t now, s.journal = some t ∧ t.state = .staged ∧ t.bootId = bootIdOf s.boot ∧
      s.clock ≤ now ∧ now < t.deadlineBoottimeNs
  lapsed : q = .confirm ∨ q = .rollbackIfNeeded →
    ∀ t, ⟨.load, some (LoadResult.valid t)⟩ ∈ x.2 → t.state = .staged →
      s.journal = some t ∧ RolledBackIfLapsed t x.2
  confirming : q = .rollbackIfNeeded →
    ∀ t, ⟨.load, some (LoadResult.valid t)⟩ ∈ x.2 → t.state = .confirming →
      s.journal = some t ∧ ∃ r, ⟨.rollback t.previous t.candidate, some r⟩ ∈ x.2

end Account

/-! ### One sub-step at a time -/

section SubSteps

variable {bootIdOf : Nat → Bytes} {window : UInt64} {q : Operation} {s₀ : Machine}
  {s : Machine} {new : Log} {α : Type} {Q : α → Machine × Log → Prop}

theorem Evolves.refl (s : Machine) : Evolves s s :=
  ⟨rfl, UInt64.le_refl _, .inl ⟨rfl, fun t' ht' => ⟨t', ht', rfl, id, id⟩⟩⟩

theorem Evolves.tick (h : Evolves s₀ s) {now : UInt64} (hnow : s.clock ≤ now) :
    Evolves s₀ { s with clock := now } :=
  ⟨h.boot, UInt64.le_trans h.clock hnow, h.journal⟩

theorem Evolves.put_none (h : Evolves s₀ s) : Evolves s₀ (s.put none) := by
  refine ⟨h.boot, h.clock, ?_⟩
  rcases h.journal with ⟨hs, -⟩ | hs
  · exact .inl ⟨by simpa [Machine.put] using hs, by simp [Machine.put]⟩
  · exact .inr (by simpa [Machine.put] using hs)

/-- The record the operation found is moved on. -/
theorem Evolves.put_some (h : Evolves s₀ s) {t : Transaction} {state : TransactionState}
    (hj : s₀.journal = some t) (hs : s.serial = s₀.serial) (hstate : state ≠ .staged)
    (hp : state = .confirming → t.Pending) :
    Evolves s₀ (s.put (some { t with state := state })) := by
  refine ⟨h.boot, h.clock, .inl ⟨by simpa [Machine.put, hstate] using hs, ?_⟩⟩
  rintro t' ⟨⟩
  refine ⟨t, hj, rfl, fun h => absurd h hstate, ?_⟩
  rintro (h | h)
  · exact absurd h hstate
  · exact hp h

theorem InWindow.append {p c : NetworkConfig} (h : InWindow bootIdOf s₀ new p c)
    (e : Event transactionCalls) : InWindow bootIdOf s₀ (new ++ [e]) p c := by
  obtain ⟨t, now, hj, ht, hp, hc, hb, hnow, hwin⟩ := h
  exact ⟨t, now, hj, ht, hp, hc, hb, List.mem_append_left _ hnow, hwin⟩

/-- Logging a sub-step; a decision of the backend must be due. -/
theorem Progress.log_event (h : Progress bootIdOf window q s₀ (s, new))
    {e : Event transactionCalls}
    (hc : ∀ p c, e.op = .confirm p c → q = .confirm ∧ InWindow bootIdOf s₀ new p c)
    (hr : ∀ p c, e.op = .rollback p c →
      ((∃ t, s₀.journal = some t ∧ t.Pending ∧ t.previous = p ∧ t.candidate = c) ∧
          s.serial = s₀.serial ∧ ∀ candidate, q ≠ .stage candidate) ∨
        ((∃ candidate, q = .stage candidate) ∧ s.serial = s₀.serial + 1)) :
    Progress bootIdOf window q s₀ (s, new ++ [e]) := by
  refine ⟨h.evolves, h.timed, ?_, ?_⟩
  · intro p c r hmem
    rcases List.mem_append.mp hmem with hmem | hmem
    · obtain ⟨hq, hin⟩ := h.confirms p c r hmem
      exact ⟨hq, hin.append e⟩
    · obtain ⟨hq, hin⟩ := hc p c (congrArg Event.op (List.mem_singleton.mp hmem)).symm
      exact ⟨hq, hin.append e⟩
  · intro p c r hmem
    rcases List.mem_append.mp hmem with hmem | hmem
    · exact h.rollbacks p c r hmem
    · exact hr p c (congrArg Event.op (List.mem_singleton.mp hmem)).symm

/-- Logging a sub-step that calls neither `confirm` nor `rollback`. -/
theorem Progress.log (h : Progress bootIdOf window q s₀ (s, new)) {e : Event transactionCalls}
    (hc : ∀ p c, e.op ≠ .confirm p c) (hr : ∀ p c, e.op ≠ .rollback p c) :
    Progress bootIdOf window q s₀ (s, new ++ [e]) :=
  h.log_event (fun p c he => absurd he (hc p c)) fun p c he => absurd he (hr p c)

/-- The machine moves on, within what the operation may do. -/
theorem Progress.move (h : Progress bootIdOf window q s₀ (s, new)) {s' : Machine}
    (hev : Evolves s₀ s') (ht : WellTimed bootIdOf window s') (hs : s'.serial = s.serial) :
    Progress bootIdOf window q s₀ (s', new) :=
  ⟨hev, ht, h.confirms, fun p c r hmem => by
    have := h.rollbacks p c r hmem
    rwa [← hs] at this⟩

theorem Progress.tick (h : Progress bootIdOf window q s₀ (s, new)) {now : UInt64}
    (hnow : s.clock ≤ now) :
    Progress bootIdOf window q s₀ ({ s with clock := now }, new) :=
  h.move (h.evolves.tick hnow) h.timed rfl

theorem Progress.put_none (h : Progress bootIdOf window q s₀ (s, new)) :
    Progress bootIdOf window q s₀ (s.put none, new) :=
  h.move h.evolves.put_none (by simp [WellTimed, Machine.put]) (by simp [Machine.put])

/-- The record in the journal when the operation began, moved on. -/
theorem Progress.put_some (h : Progress bootIdOf window q s₀ (s, new)) {t : Transaction}
    {state : TransactionState} (hw : WellTimed bootIdOf window s₀) (hj : s₀.journal = some t)
    (hs : s.serial = s₀.serial) (hstate : state ≠ .staged)
    (hp : state = .confirming → t.Pending) :
    Progress bootIdOf window q s₀ (s.put (some { t with state := state }), new) := by
  refine h.move (h.evolves.put_some hj hs hstate hp) ?_ (by simp [Machine.put, hstate])
  rintro t' ⟨⟩
  obtain ⟨hd, hne, b, hb, hid⟩ := hw t hj
  exact ⟨hd, hne, b, by rw [show (s.put _).boot = s.boot from rfl, h.evolves.boot]; exact hb, hid⟩

theorem ensures_answered {a : α} {s : Machine × Log}
    (h : Progress bootIdOf window q s₀ s) (hQ : Q a s) :
    (Prog.done a : TransactionProg α).Ensures (machineWorld bootIdOf).traced
      (Progress bootIdOf window q s₀) Q s :=
  ⟨fun _ => h, hQ⟩

/-- Sub-steps that leave the machine alone and are not backend decisions. -/
theorem ensures_still {o : TransactionCall} {k : transactionCalls.Answer o → TransactionProg α}
    (ho : o = .lock ∨ o = .readCurrent ∨ ∃ p c, o = .applyStage p c)
    (h : Progress bootIdOf window q s₀ (s, new))
    (hk : ∀ a, Progress bootIdOf window q s₀ (s, new ++ [⟨o, some a⟩]) →
      (k a).Ensures (machineWorld bootIdOf).traced (Progress bootIdOf window q s₀) Q
        (s, new ++ [⟨o, some a⟩])) :
    (Prog.call (I := transactionCalls) o k).Ensures (machineWorld bootIdOf).traced
      (Progress bootIdOf window q s₀) Q (s, new) := by
  have hlog : ∀ r, Progress bootIdOf window q s₀ (s, new ++ [⟨o, r⟩]) := by
    intro r
    apply h.log <;> rcases ho with rfl | rfl | ⟨p, c, rfl⟩ <;> simp
  refine ⟨fun _ => h, ?_, ?_⟩
  · rintro ⟨s', log⟩ ⟨hs, hl⟩
    obtain rfl : log = _ := hl
    obtain rfl : s' = s := by rcases ho with rfl | rfl | ⟨p, c, rfl⟩ <;> exact hs
    exact hlog none
  · rintro a ⟨s', log⟩ ⟨hs, hl⟩
    obtain rfl : log = _ := hl
    obtain rfl : s' = s := by rcases ho with rfl | rfl | ⟨p, c, rfl⟩ <;> exact hs
    exact hk a (hlog (some a))

theorem ensures_load_journal {k : LoadResult → TransactionProg α}
    (h : Progress bootIdOf window q s₀ (s, new))
    (hk : ∀ r, LoadResult.Reads s.journal r →
      Progress bootIdOf window q s₀ (s, new ++ [⟨.load, some r⟩]) →
      (k r).Ensures (machineWorld bootIdOf).traced (Progress bootIdOf window q s₀) Q
        (s, new ++ [⟨.load, some r⟩])) :
    (Prog.call (I := transactionCalls) .load k).Ensures (machineWorld bootIdOf).traced
      (Progress bootIdOf window q s₀) Q (s, new) := by
  have hlog : ∀ r, Progress bootIdOf window q s₀ (s, new ++ [⟨.load, r⟩]) := fun r =>
    h.log (by simp) (by simp)
  refine ⟨fun _ => h, ?_, ?_⟩
  · rintro ⟨s', log⟩ ⟨hs, hl⟩
    obtain rfl : log = _ := hl
    obtain rfl : s' = s := hs
    exact hlog none
  · rintro a ⟨s', log⟩ ⟨⟨hs, hread⟩, hl⟩
    obtain rfl : log = _ := hl
    obtain rfl : s' = s := hs
    exact hk a hread (hlog (some a))

/-- Reading the boot id and then the clock. -/
theorem ensures_clock {k : Bytes → UInt64 → TransactionProg α}
    (h : Progress bootIdOf window q s₀ (s, new))
    (hk : ∀ b n now, b = bootIdOf s.boot ∨ b = [] → s.clock ≤ now → n = now ∨ n = 0 →
      Progress bootIdOf window q s₀ ({ s with clock := now },
        new ++ [⟨.bootId, some b⟩] ++ [⟨.boottimeNs, some n⟩]) →
      (k b n).Ensures (machineWorld bootIdOf).traced (Progress bootIdOf window q s₀) Q
        ({ s with clock := now }, new ++ [⟨.bootId, some b⟩] ++ [⟨.boottimeNs, some n⟩])) :
    (Prog.call (I := transactionCalls) .bootId fun b =>
      Prog.call (I := transactionCalls) .boottimeNs fun n => k b n).Ensures
      (machineWorld bootIdOf).traced (Progress bootIdOf window q s₀) Q (s, new) := by
  have hlog : ∀ b, Progress bootIdOf window q s₀ (s, new ++ [⟨.bootId, b⟩]) := fun b =>
    h.log (by simp) (by simp)
  refine ⟨fun _ => h, ?_, ?_⟩
  · rintro ⟨s', log⟩ ⟨hs, hl⟩
    obtain rfl : log = _ := hl
    obtain rfl : s' = s := hs
    exact hlog none
  · rintro b ⟨s', log⟩ ⟨⟨hs, hb⟩, hl⟩
    obtain rfl : log = _ := hl
    obtain rfl : s' = s := hs
    refine ⟨fun _ => hlog (some b), ?_, ?_⟩
    · rintro ⟨s'', log⟩ ⟨hs, hl⟩
      obtain rfl : log = _ := hl
      obtain rfl : s'' = s' := hs
      exact (hlog (some b)).log (by simp) (by simp)
    · rintro n ⟨s'', log⟩ ⟨⟨now, hnow, hs, hn⟩, hl⟩
      obtain rfl : log = _ := hl
      obtain rfl : s'' = _ := hs
      exact hk b n now hb hnow hn (((hlog (some b)).log (by simp) (by simp)).tick hnow)

theorem ensures_clear_journal {k : Bool → TransactionProg α}
    (h : Progress bootIdOf window q s₀ (s, new))
    (hfalse : ∀ s', Progress bootIdOf window q s₀ (s', new ++ [⟨.clear, some false⟩]) →
      s'.serial = s.serial →
      (k false).Ensures (machineWorld bootIdOf).traced (Progress bootIdOf window q s₀) Q
        (s', new ++ [⟨.clear, some false⟩]))
    (htrue : Progress bootIdOf window q s₀ (s.put none, new ++ [⟨.clear, some true⟩]) →
      (k true).Ensures (machineWorld bootIdOf).traced (Progress bootIdOf window q s₀) Q
        (s.put none, new ++ [⟨.clear, some true⟩])) :
    (Prog.call (I := transactionCalls) .clear k).Ensures (machineWorld bootIdOf).traced
      (Progress bootIdOf window q s₀) Q (s, new) := by
  have hlog : ∀ r, Progress bootIdOf window q s₀ (s, new ++ [⟨.clear, r⟩]) := fun r =>
    h.log (by simp) (by simp)
  refine ⟨fun _ => h, ?_, ?_⟩
  · rintro ⟨s', log⟩ ⟨hs, hl⟩
    obtain rfl : log = _ := hl
    rcases hs with hs | hs <;> obtain rfl : s' = _ := hs
    · exact (hlog none).put_none
    · exact hlog none
  · rintro ok ⟨s', log⟩ ⟨hs, hl⟩
    obtain rfl : log = _ := hl
    rcases hs with hs | ⟨rfl, hs⟩ <;> obtain rfl : s' = _ := hs
    · cases ok with
      | false => exact hfalse _ (hlog _).put_none (by simp [Machine.put])
      | true => exact htrue (hlog _).put_none
    · exact hfalse _ (hlog _) rfl

/-- Moving on the record that was in the journal when the operation began. -/
theorem ensures_save_record {t : Transaction} {state : TransactionState}
    {k : Bool → TransactionProg α} (h : Progress bootIdOf window q s₀ (s, new))
    (hw : WellTimed bootIdOf window s₀) (hj : s₀.journal = some t) (hs : s.serial = s₀.serial)
    (hstate : state ≠ .staged) (hp : state = .confirming → t.Pending)
    (hfalse : ∀ s', Progress bootIdOf window q s₀
        (s', new ++ [⟨.save { t with state := state }, some false⟩]) →
      (k false).Ensures (machineWorld bootIdOf).traced (Progress bootIdOf window q s₀) Q
        (s', new ++ [⟨.save { t with state := state }, some false⟩]))
    (htrue : Progress bootIdOf window q s₀ (s.put (some { t with state := state }),
        new ++ [⟨.save { t with state := state }, some true⟩]) →
      (k true).Ensures (machineWorld bootIdOf).traced (Progress bootIdOf window q s₀) Q
        (s.put (some { t with state := state }),
          new ++ [⟨.save { t with state := state }, some true⟩])) :
    (Prog.call (I := transactionCalls) (.save { t with state := state }) k).Ensures
      (machineWorld bootIdOf).traced (Progress bootIdOf window q s₀) Q (s, new) := by
  have hlog : ∀ r, Progress bootIdOf window q s₀
      (s, new ++ [⟨.save { t with state := state }, r⟩]) := fun r =>
    h.log (by simp) (by simp)
  refine ⟨fun _ => h, ?_, ?_⟩
  · rintro ⟨s', log⟩ ⟨hs', hl⟩
    obtain rfl : log = _ := hl
    rcases hs' with hs' | hs' <;> obtain rfl : s' = _ := hs'
    · exact (hlog none).put_some hw hj hs hstate hp
    · exact hlog none
  · rintro ok ⟨s', log⟩ ⟨hs', hl⟩
    obtain rfl : log = _ := hl
    rcases hs' with hs' | ⟨rfl, hs'⟩ <;> obtain rfl : s' = _ := hs'
    · cases ok with
      | false => exact hfalse _ ((hlog _).put_some hw hj hs hstate hp)
      | true => exact htrue ((hlog _).put_some hw hj hs hstate hp)
    · exact hfalse _ (hlog _)

/-- A call of `confirm` or `rollback`, where it is due. -/
theorem ensures_decision {o : TransactionCall} {k : transactionCalls.Answer o → TransactionProg α}
    (ho : (∃ p c, o = .confirm p c) ∨ ∃ p c, o = .rollback p c)
    (h : Progress bootIdOf window q s₀ (s, new))
    (hc : ∀ p c, o = .confirm p c → q = .confirm ∧ InWindow bootIdOf s₀ new p c)
    (hr : ∀ p c, o = .rollback p c →
      ((∃ t, s₀.journal = some t ∧ t.Pending ∧ t.previous = p ∧ t.candidate = c) ∧
          s.serial = s₀.serial ∧ ∀ candidate, q ≠ .stage candidate) ∨
        ((∃ candidate, q = .stage candidate) ∧ s.serial = s₀.serial + 1))
    (hk : ∀ a, Progress bootIdOf window q s₀ (s, new ++ [⟨o, some a⟩]) →
      (k a).Ensures (machineWorld bootIdOf).traced (Progress bootIdOf window q s₀) Q
        (s, new ++ [⟨o, some a⟩])) :
    (Prog.call (I := transactionCalls) o k).Ensures (machineWorld bootIdOf).traced
      (Progress bootIdOf window q s₀) Q (s, new) := by
  refine ⟨fun _ => h, ?_, ?_⟩
  · rintro ⟨s', log⟩ ⟨hs, hl⟩
    obtain rfl : log = _ := hl
    obtain rfl : s' = s := by rcases ho with ⟨p, c, rfl⟩ | ⟨p, c, rfl⟩ <;> exact hs
    exact h.log_event hc hr
  · rintro a ⟨s', log⟩ ⟨hs, hl⟩
    obtain rfl : log = _ := hl
    obtain rfl : s' = s := by rcases ho with ⟨p, c, rfl⟩ | ⟨p, c, rfl⟩ <;> exact hs
    exact hk a (h.log_event hc hr)

end SubSteps

/-! ### The operations -/

section Operations

variable {bootIdOf : Nat → Bytes} {window : UInt64} {q : Operation} {s₀ : Machine}
  {s : Machine} {new : Log} {m m' : TransactionManager} {t : Transaction}

/-- The full account of an operation begun in `s₀`. -/
abbrev Accounted (bootIdOf : Nat → Bytes) (window : UInt64) (q : Operation)
    (m : TransactionManager) (s₀ : Machine) (p : TransactionProg OperationResult)
    (x : Machine × Log) : Prop :=
  p.Ensures (machineWorld bootIdOf).traced (Progress bootIdOf window q s₀)
    (fun r x' => Progress bootIdOf window q s₀ x' ∧ Returned bootIdOf q m s₀ r x') x

/-- An operation that ends having rolled back the one transaction it loaded. -/
theorem returned_of_rollback {r : OperationResult} (hj : s₀.journal = some t)
    (hwin : r.2.rollbackWindowNs = m.rollbackWindowNs) (hok : q = .confirm → r.1 ≠ .ok)
    (hload : ∀ t', ⟨.load, some (LoadResult.valid t')⟩ ∈ new → t' = t)
    (hread : q ≠ .rollbackNow → t.state = .staged →
      ∃ b n, ⟨.bootId, some b⟩ ∈ new ∧ ⟨.boottimeNs, some n⟩ ∈ new)
    (hback : ∃ r, ⟨.rollback t.previous t.candidate, some r⟩ ∈ new) :
    Returned bootIdOf q m s₀ r (s, new) where
  window := hwin
  confirmed hq hr := absurd hr (hok hq)
  lapsed hq t' ht' hst := by
    obtain rfl := hload t' ht'
    have hq : q ≠ .rollbackNow := by
      rcases hq with rfl | rfl <;> simp
    obtain ⟨b, n, hb, hn⟩ := hread hq hst
    exact ⟨hj, b, n, hb, hn, fun _ => hback⟩
  confirming _ t' ht' _ := by
    obtain rfl := hload t' ht'
    exact ⟨hj, hback⟩

/-- An operation that ends without having loaded a staged or confirming
transaction. -/
theorem returned_of_idle {r : OperationResult} {x : Machine × Log}
    (hwin : r.2.rollbackWindowNs = m.rollbackWindowNs) (hok : q = .confirm → r.1 ≠ .ok)
    (hload : ∀ t', ⟨.load, some (LoadResult.valid t')⟩ ∈ x.2 →
      t'.state ≠ .staged ∧ (q = .rollbackIfNeeded → t'.state ≠ .confirming)) :
    Returned bootIdOf q m s₀ r x where
  window := hwin
  confirmed hq hr := absurd hr (hok hq)
  lapsed _ t' ht' hst := absurd hst (hload t' ht').1
  confirming hq t' ht' hst := absurd hst ((hload t' ht').2 hq)

theorem rollbackLoaded_accounted {reason : TransactionResult}
    (hw : WellTimed bootIdOf window s₀) (hj : s₀.journal = some t) (hp : t.Pending)
    (h : Progress bootIdOf window q s₀ (s, new)) (hs : s.serial = s₀.serial)
    (hq : ∀ candidate, q ≠ .stage candidate) (hm : m'.rollbackWindowNs = m.rollbackWindowNs)
    (hreason : q = .confirm → reason = .expired ∨ reason = .bootChanged)
    (hload : ∀ t', ⟨.load, some (LoadResult.valid t')⟩ ∈ new → t' = t)
    (hread : q ≠ .rollbackNow → t.state = .staged →
      ∃ b n, ⟨.bootId, some b⟩ ∈ new ∧ ⟨.boottimeNs, some n⟩ ∈ new) :
    Accounted bootIdOf window q m s₀ (m'.rollbackLoaded t reason) (s, new) := by
  unfold TransactionManager.rollbackLoaded TransactionManager.recordRolledBack
  -- whatever is logged after the rollback, the operation may return
  have hdone : ∀ (r : OperationResult) s' more, r.2.rollbackWindowNs = m.rollbackWindowNs →
      (q = .confirm → r.1 ≠ .ok) →
      (∀ t', ⟨.load, some (LoadResult.valid t')⟩ ∈ more → False) →
      (∃ r, ⟨.rollback t.previous t.candidate, some r⟩ ∈ more) →
      Progress bootIdOf window q s₀ (s', new ++ more) →
      Accounted bootIdOf window q m s₀ (.done r) (s', new ++ more) := by
    rintro r s' more hwin hok hmore ⟨ok, hback⟩ hpr
    refine ensures_answered hpr ⟨hpr, returned_of_rollback hj hwin hok ?_ ?_ ?_⟩
    · intro t' ht'
      rcases List.mem_append.mp ht' with ht' | ht'
      · exact hload t' ht'
      · exact (hmore t' ht').elim
    · intro hq' hst
      obtain ⟨b, n, hb, hn⟩ := hread hq' hst
      exact ⟨b, n, List.mem_append_left _ hb, List.mem_append_left _ hn⟩
    · exact ⟨ok, List.mem_append_right _ hback⟩
  refine ensures_decision (.inr ⟨_, _, rfl⟩) h (by simp) ?_ ?_
  · intro p c hpc
    simp only [TransactionCall.rollback.injEq] at hpc
    exact .inl ⟨⟨t, hj, hp, hpc⟩, hs, hq⟩
  intro rolledBack h₁
  cases rolledBack with
  | false => exact hdone _ _ _ hm (by simp [TransactionManager.setError]) (by simp) (by simp) h₁
  | true =>
    refine ensures_save_record h₁ hw hj hs (by simp) (by simp) ?_ ?_
    · intro s' h₂
      rw [List.append_assoc] at h₂ ⊢
      exact hdone _ _ _ hm (by simp [TransactionManager.setError]) (by simp) (by simp) h₂
    · intro h₂
      refine ensures_clear_journal h₂ ?_ ?_
      · intro s' h₃ _
        rw [List.append_assoc, List.append_assoc] at h₃ ⊢
        exact hdone _ _ _ hm (by simp [TransactionManager.setError]) (by simp) (by simp) h₃
      · intro h₃
        rw [List.append_assoc, List.append_assoc] at h₃ ⊢
        dsimp only
        split
        · contradiction
        · split
          · rename_i hr
            refine hdone _ _ _ hm ?_ (by simp) (by simp) h₃
            intro _
            rcases hr with rfl | rfl <;> simp [TransactionManager.setError]
          · rename_i hr
            exact hdone _ _ _ hm (fun hq' => absurd (hreason hq') hr) (by simp) (by simp) h₃

/-- `stage` checks that the deadline does not wrap around. -/
theorem deadline_exact {staged window : UInt64}
    (h : ¬ window > (0xFFFFFFFFFFFFFFFF : UInt64) - staged) :
    (staged + window).toNat = staged.toNat + window.toNat := by
  have hle : staged ≤ (0xFFFFFFFFFFFFFFFF : UInt64) := by
    rw [UInt64.le_iff_toNat_le]
    have := staged.toNat_lt
    simp
    omega
  rw [gt_iff_lt, UInt64.lt_iff_toNat_lt, UInt64.toNat_sub_of_le _ _ hle] at h
  rw [UInt64.toNat_add]
  have h₁ := staged.toNat_lt
  have h₂ : (0xFFFFFFFFFFFFFFFF : UInt64).toNat = 2 ^ 64 - 1 := rfl
  omega

theorem returned_of_stage {candidate : NetworkConfig} {r : OperationResult} {x : Machine × Log}
    (hwin : r.2.rollbackWindowNs = m.rollbackWindowNs) :
    Returned bootIdOf (.stage candidate) m s₀ r x :=
  ⟨hwin, by simp, by simp, by simp⟩

/-- Journalling a new staged record. -/
theorem ensures_save_staged {candidate : NetworkConfig} {k : Bool → TransactionProg OperationResult}
    (ho : ¬ s₀.Open) (ht : t.state = .staged)
    (h : Progress bootIdOf window (.stage candidate) s₀ (s, new)) (hs : s.serial = s₀.serial)
    (hnew : ∀ p c r, ⟨.rollback p c, r⟩ ∉ new)
    (htimed : WellTimed bootIdOf window (s.put (some t)))
    (hfalse : ∀ s', Progress bootIdOf window (.stage candidate) s₀
        (s', new ++ [⟨.save t, some false⟩]) →
      Accounted bootIdOf window (.stage candidate) m s₀ (k false)
        (s', new ++ [⟨.save t, some false⟩]))
    (htrue : Progress bootIdOf window (.stage candidate) s₀
        (s.put (some t), new ++ [⟨.save t, some true⟩]) →
      Accounted bootIdOf window (.stage candidate) m s₀ (k true)
        (s.put (some t), new ++ [⟨.save t, some true⟩])) :
    Accounted bootIdOf window (.stage candidate) m s₀
      (Prog.call (I := transactionCalls) (.save t) k) (s, new) := by
  have hput : ∀ r, Progress bootIdOf window (.stage candidate) s₀
      (s.put (some t), new ++ [⟨.save t, r⟩]) := by
    intro r
    have hl := h.log (e := ⟨.save t, r⟩) (by simp) (by simp)
    refine ⟨⟨h.evolves.boot, h.evolves.clock, .inr ⟨by simp [Machine.put, ht, hs], ho⟩⟩, htimed,
      hl.confirms, ?_⟩
    intro p c r' hmem
    simp only [List.mem_append, List.mem_singleton, Event.mk.injEq, reduceCtorEq, false_and,
      or_false] at hmem
    exact absurd hmem (hnew p c r')
  have hlog : ∀ r, Progress bootIdOf window (.stage candidate) s₀ (s, new ++ [⟨.save t, r⟩]) :=
    fun r => h.log (by simp) (by simp)
  refine ⟨fun _ => h, ?_, ?_⟩
  · -- a save cut off in the middle may or may not have reached the file
    rintro ⟨s', log⟩ ⟨hs', hl⟩
    obtain rfl : log = _ := hl
    rcases hs' with hs' | hs' <;> obtain rfl : s' = _ := hs'
    · exact hput none
    · exact hlog none
  · rintro ok ⟨s', log⟩ ⟨hs', hl⟩
    obtain rfl : log = _ := hl
    rcases hs' with hs' | ⟨rfl, hs'⟩ <;> obtain rfl : s' = _ := hs'
    · -- the record is in the file, whether or not the save says so
      cases ok with
      | false => exact hfalse _ (hput _)
      | true => exact htrue (hput _)
    · exact hfalse _ (hlog _)

theorem stageUnlocked_accounted {candidate : NetworkConfig} (ho : ¬ s₀.Open)
    (hm : m'.rollbackWindowNs = m.rollbackWindowNs) (hmw : m.rollbackWindowNs = window)
    (h : Progress bootIdOf window (.stage candidate) s₀ (s, new)) (hs : s.serial = s₀.serial)
    (hnew : ∀ p c r, ⟨.rollback p c, r⟩ ∉ new) :
    Accounted bootIdOf window (.stage candidate) m s₀ (m'.stageUnlocked candidate) (s, new) := by
  have hend : ∀ (r : OperationResult) x, r.2.rollbackWindowNs = m.rollbackWindowNs →
      Progress bootIdOf window (.stage candidate) s₀ x →
      Accounted bootIdOf window (.stage candidate) m s₀ (.done r) x := fun r x hr hx =>
    ensures_answered hx ⟨hx, returned_of_stage hr⟩
  unfold TransactionManager.stageUnlocked
  refine ensures_still (.inr (.inl rfl)) h fun previous h₁ => ?_
  cases previous with
  | none => exact hend _ _ hm h₁
  | some previous =>
    dsimp only
    split
    · exact hend _ _ hm h₁
    · refine ensures_clock h₁ fun b n now hb hnow hn h₂ => ?_
      split
      · exact hend _ _ hm h₂
      · rename_i hclock
        simp only [not_or] at hclock
        obtain ⟨hbne, -, hwrap⟩ := hclock
        refine ensures_save_staged ho rfl h₂ hs ?_ ?_ ?_ ?_
        · intro p c r hmem
          simp only [List.mem_append, List.mem_singleton, Event.mk.injEq, reduceCtorEq, false_and,
            or_false] at hmem
          exact hnew p c r hmem
        · -- the record is dated by this boot and its deadline is exact
          rintro t' ⟨⟩
          have hbne' : b ≠ [] := by simpa using hbne
          refine ⟨?_, hbne', s.boot, Nat.le_refl _, hb.resolve_right hbne'⟩
          rw [← hmw, ← hm]
          exact deadline_exact hwrap
        · intro s' h₃
          exact hend _ _ hm h₃
        · intro h₃
          refine ensures_still (.inr (.inr ⟨_, _, rfl⟩)) h₃ fun applied h₄ => ?_
          cases applied with
          | true => exact hend _ _ hm h₄
          | false =>
            -- the stage undoes its own record, the one numbered after the initial one
            refine ensures_decision (.inr ⟨_, _, rfl⟩) h₄ (by simp) ?_ fun rolledBack h₅ => ?_
            · intro p c _
              exact .inr ⟨⟨candidate, rfl⟩, by simp [Machine.put, hs]⟩
            cases rolledBack with
            | false => exact hend _ _ hm h₅
            | true =>
              refine ensures_clear_journal h₅ (fun s' h₆ _ => hend _ _ hm h₆) fun h₆ => ?_
              exact hend _ _ hm h₆

theorem stage_accounted {candidate : NetworkConfig} (hmw : m.rollbackWindowNs = window)
    (hw : WellTimed bootIdOf window s₀) :
    Accounted bootIdOf window (.stage candidate) m s₀ (m.stage candidate) (s₀, []) := by
  have h₀ : Progress bootIdOf window (.stage candidate) s₀ (s₀, []) :=
    ⟨.refl s₀, hw, by simp, by simp⟩
  have hend : ∀ (r : OperationResult) x, r.2.rollbackWindowNs = m.rollbackWindowNs →
      Progress bootIdOf window (.stage candidate) s₀ x →
      Accounted bootIdOf window (.stage candidate) m s₀ (.done r) x := fun r x hr hx =>
    ensures_answered hx ⟨hx, returned_of_stage hr⟩
  unfold TransactionManager.stage
  split
  · exact hend _ _ rfl h₀
  · refine ensures_still (.inl rfl) h₀ fun acquired h₁ => ?_
    split
    · exact hend _ _ rfl h₁
    · refine ensures_load_journal h₁ ?_
      rintro r (rfl | rfl | rfl) h₂
      · exact hend _ _ rfl h₂
      · exact hend _ _ rfl h₂
      · cases hj : s₀.journal with
        | none =>
          simp only [hj, Option.elim] at h₂ ⊢
          refine stageUnlocked_accounted ?_ rfl hmw h₂ rfl (by simp)
          rintro ⟨t, ht, -⟩
          simp [hj] at ht
        | some t =>
          simp only [hj, Option.elim] at h₂ ⊢
          split
          · exact hend _ _ rfl h₂
          · rename_i hp
            refine stageUnlocked_accounted ?_ rfl hmw h₂ rfl (by simp)
            rintro ⟨t', ht', hp'⟩
            rw [hj] at ht'
            cases ht'
            exact hp hp'

/-- The log of an operation that has loaded the transaction `t`. -/
def loadedLog (t : Transaction) : Log :=
  [⟨.lock, some true⟩, ⟨.load, some (LoadResult.valid t)⟩]

theorem loadedLog_load {t t' : Transaction}
    (h : ⟨.load, some (LoadResult.valid t')⟩ ∈ loadedLog t) : t' = t := by
  simpa [loadedLog] using h

/-- Opening an operation on the journalled transaction: what goes on after the
load is all that has to be accounted for. -/
theorem withLoaded_accounted
    {go : TransactionManager → Transaction → TransactionProg OperationResult}
    (hw : WellTimed bootIdOf window s₀)
    (hgo : ∀ t, s₀.journal = some t → Progress bootIdOf window q s₀ (s₀, loadedLog t) →
      Accounted bootIdOf window q m s₀ (go { m with lastError := "" } t) (s₀, loadedLog t)) :
    Accounted bootIdOf window q m s₀ (m.withLoaded go) (s₀, []) := by
  have h₀ : Progress bootIdOf window q s₀ (s₀, []) := ⟨.refl s₀, hw, by simp, by simp⟩
  -- an operation that ends here has loaded nothing
  have hend : ∀ result message (x : Machine × Log), result ≠ .ok →
      (∀ t', ⟨.load, some (LoadResult.valid t')⟩ ∉ x.2) → Progress bootIdOf window q s₀ x →
      Accounted bootIdOf window q m s₀
        (.done (TransactionManager.setError { m with lastError := "" } result message)) x := by
    intro result message x hne hload hx
    refine ensures_answered hx ⟨hx, returned_of_idle rfl (fun _ => hne) ?_⟩
    intro t' ht'
    exact absurd ht' (hload t')
  unfold TransactionManager.withLoaded
  refine ensures_still (.inl rfl) h₀ fun acquired h₁ => ?_
  cases acquired with
  | false => exact hend _ _ _ (by simp) (by simp) h₁
  | true =>
    refine ensures_load_journal h₁ ?_
    rintro r (rfl | rfl | rfl) h₂
    · exact hend _ _ _ (by simp) (by simp) h₂
    · exact hend _ _ _ (by simp) (by simp) h₂
    · cases hj : s₀.journal with
      | none =>
        simp only [hj, Option.elim] at h₂ ⊢
        exact hend _ _ _ (by simp) (by simp) h₂
      | some t =>
        simp only [hj, Option.elim] at h₂ ⊢
        exact hgo t hj h₂

/-- An operation that found the staged `t` within its window, or ended with `t`
confirmed, has nothing to roll back. -/
theorem returned_of_current {r : OperationResult} {b : Bytes} {n : UInt64}
    (hwin : r.2.rollbackWindowNs = m.rollbackWindowNs)
    (hok : q = .confirm → r.1 = .ok → s.journal = none ∧ s.serial = s₀.serial ∧
      ∃ t now, s₀.journal = some t ∧ t.state = .staged ∧ t.bootId = bootIdOf s₀.boot ∧
        s₀.clock ≤ now ∧ now < t.deadlineBoottimeNs)
    (hj : s₀.journal = some t) (hst : t.state = .staged)
    (hload : ∀ t', ⟨.load, some (LoadResult.valid t')⟩ ∈ new → t' = t)
    (hb : ⟨.bootId, some b⟩ ∈ new) (hn : ⟨.boottimeNs, some n⟩ ∈ new)
    (hcur : b = t.bootId ∧ n ≠ 0 ∧ n < t.deadlineBoottimeNs) :
    Returned bootIdOf q m s₀ r (s, new) where
  window := hwin
  confirmed := hok
  lapsed _ t' ht' _ := by
    obtain rfl := hload t' ht'
    refine ⟨hj, b, n, hb, hn, ?_⟩
    rintro (h | h | h)
    · exact absurd h hcur.2.1
    · exact absurd hcur.2.2 (UInt64.not_lt.mpr h)
    · exact absurd hcur.1 h
  confirming _ t' ht' hc := by
    obtain rfl := hload t' ht'
    rw [hst] at hc
    cases hc

theorem confirmLoaded_accounted {b : Bytes} {now : UInt64}
    (hw : WellTimed bootIdOf window s₀) (hj : s₀.journal = some t) (hst : t.state = .staged)
    (h : Progress bootIdOf window .confirm s₀ (s, new)) (hs : s.serial = s₀.serial)
    (hm : m'.rollbackWindowNs = m.rollbackWindowNs)
    (hload : ∀ t', ⟨.load, some (LoadResult.valid t')⟩ ∈ new → t' = t)
    (hb : ⟨.bootId, some b⟩ ∈ new) (hn : ⟨.boottimeNs, some now⟩ ∈ new)
    (hboot : t.bootId = bootIdOf s₀.boot) (hclock : s₀.clock ≤ now)
    (hcur : b = t.bootId ∧ now ≠ 0 ∧ now < t.deadlineBoottimeNs) :
    Accounted bootIdOf window .confirm m s₀ (m'.confirmLoaded t) (s, new) := by
  have hpend : t.Pending := .inl hst
  have hpos : 0 < now := UInt64.pos_iff_ne_zero.mpr hcur.2.1
  have hwindow : InWindow bootIdOf s₀ new t.previous t.candidate :=
    ⟨t, now, hj, hst, rfl, rfl, hboot, hn, hpos, hcur.2.2⟩
  -- whatever is logged from here on, the operation may return
  have hdone : ∀ (r : OperationResult) s' more, r.2.rollbackWindowNs = m.rollbackWindowNs →
      (r.1 = .ok → s'.journal = none ∧ s'.serial = s₀.serial) →
      (∀ t', ⟨.load, some (LoadResult.valid t')⟩ ∉ more) →
      Progress bootIdOf window .confirm s₀ (s', new ++ more) →
      Accounted bootIdOf window .confirm m s₀ (.done r) (s', new ++ more) := by
    intro r s' more hwin hok hmore hpr
    refine ensures_answered hpr ⟨hpr, returned_of_current hwin ?_ hj hst ?_
      (List.mem_append_left _ hb) (List.mem_append_left _ hn) hcur⟩
    · intro _ hr
      obtain ⟨hnone, hserial⟩ := hok hr
      exact ⟨hnone, hserial, t, now, hj, hst, hboot, hclock, hcur.2.2⟩
    · intro t' ht'
      rcases List.mem_append.mp ht' with ht' | ht'
      · exact hload t' ht'
      · exact absurd ht' (hmore t')
  unfold TransactionManager.confirmLoaded
  refine ensures_save_record h hw hj hs (by simp) (fun _ => hpend) ?_ ?_
  · intro s' h₁
    exact hdone _ _ _ hm (by simp [TransactionManager.setError]) (by simp) h₁
  intro h₁
  -- the clock was read before the record was marked, so the window still counts
  refine ensures_decision (.inl ⟨_, _, rfl⟩) h₁ ?_ (by simp) fun confirmed h₂ => ?_
  · intro p c hpc
    simp only [TransactionCall.confirm.injEq] at hpc
    obtain ⟨rfl, rfl⟩ := hpc
    exact ⟨rfl, hwindow.append _⟩
  cases confirmed with
  | false =>
    -- a failed confirmation falls back to the rollback of the same record
    refine ensures_decision (.inr ⟨_, _, rfl⟩) h₂ (by simp) ?_ fun rolledBack h₃ => ?_
    · intro p c hpc
      simp only [TransactionCall.rollback.injEq] at hpc
      exact .inl ⟨⟨t, hj, hpend, hpc⟩, by simpa [Machine.put] using hs, by simp⟩
    cases rolledBack with
    | false =>
      rw [List.append_assoc, List.append_assoc] at h₃ ⊢
      exact hdone _ _ _ hm (by simp [TransactionManager.setError]) (by simp) h₃
    | true =>
      refine ensures_clear_journal h₃ ?_ ?_
      · intro s' h₄ _
        rw [List.append_assoc, List.append_assoc, List.append_assoc] at h₄ ⊢
        exact hdone _ _ _ hm (by simp [TransactionManager.setError]) (by simp) h₄
      · intro h₄
        rw [List.append_assoc, List.append_assoc, List.append_assoc] at h₄ ⊢
        exact hdone _ _ _ hm (by simp [TransactionManager.setError]) (by simp) h₄
  | true =>
    refine ensures_save_record h₂ hw hj (by simpa [Machine.put] using hs) (by simp) (by simp) ?_ ?_
    · intro s' h₃
      rw [List.append_assoc, List.append_assoc] at h₃ ⊢
      exact hdone _ _ _ hm (by simp [TransactionManager.setError]) (by simp) h₃
    · intro h₃
      refine ensures_clear_journal h₃ ?_ ?_
      · intro s' h₄ _
        rw [List.append_assoc, List.append_assoc, List.append_assoc] at h₄ ⊢
        exact hdone _ _ _ hm (by simp [TransactionManager.setError]) (by simp) h₄
      · intro h₄
        rw [List.append_assoc, List.append_assoc, List.append_assoc] at h₄ ⊢
        exact hdone _ _ _ hm (fun _ => ⟨rfl, by simpa [Machine.put] using hs⟩) (by simp) h₄

theorem confirm_accounted (hw : WellTimed bootIdOf window s₀) :
    Accounted bootIdOf window .confirm m s₀ m.confirm (s₀, []) := by
  refine withLoaded_accounted hw fun t hj h => ?_
  by_cases hst : t.state = .staged
  · rw [if_neg (not_not.mpr hst)]
    refine ensures_clock h fun b n now hb hnow hn h₁ => ?_
    have hload : ∀ t', ⟨.load, some (LoadResult.valid t')⟩ ∈
        loadedLog t ++ [⟨.bootId, some b⟩] ++ [⟨.boottimeNs, some n⟩] → t' = t := by
      intro t' ht'
      exact loadedLog_load (by simpa using ht')
    split
    · exact rollbackLoaded_accounted hw hj (.inl hst) h₁ rfl (by simp) rfl
        (fun _ => .inr rfl) hload fun _ _ => ⟨b, n, by simp, by simp⟩
    · rename_i hboot
      have hboot : b = t.bootId := not_not.mp hboot
      split
      · exact rollbackLoaded_accounted hw hj (.inl hst) h₁ rfl (by simp) rfl
          (fun _ => .inl rfl) hload fun _ _ => ⟨b, n, by simp, by simp⟩
      · rename_i hcur
        simp only [not_or, UInt64.not_le] at hcur
        obtain ⟨hn0, hlt⟩ := hcur
        obtain rfl : n = now := hn.resolve_right hn0
        -- the journalled boot id is never empty, so the reading did not fail
        have hid : b = bootIdOf s₀.boot := hb.resolve_right (hboot ▸ (hw t hj).2.1)
        exact confirmLoaded_accounted hw hj hst h₁ rfl rfl hload (by simp) (by simp)
          (hboot ▸ hid) hnow ⟨hboot, hn0, hlt⟩
  · rw [if_pos hst]
    have hidle : ∀ r : OperationResult, r.2.rollbackWindowNs = m.rollbackWindowNs → r.1 ≠ .ok →
        Accounted bootIdOf window .confirm m s₀ (.done r) (s₀, loadedLog t) := by
      intro r hr hne
      refine ensures_answered h ⟨h, returned_of_idle hr (fun _ => hne) ?_⟩
      intro t' ht'
      obtain rfl := loadedLog_load ht'
      exact ⟨hst, by simp⟩
    split
    · exact hidle _ rfl (by simp [TransactionManager.setError])
    · exact hidle _ rfl (by simp [TransactionManager.setError])

theorem rollbackNow_accounted (hw : WellTimed bootIdOf window s₀) :
    Accounted bootIdOf window .rollbackNow m s₀ m.rollbackNow (s₀, []) := by
  refine withLoaded_accounted hw fun t hj h => ?_
  split
  · exact ensures_answered h ⟨h, rfl, by simp, by simp, by simp⟩
  · rename_i hp
    exact rollbackLoaded_accounted hw hj (not_not.mp hp) h rfl (by simp) rfl (by simp)
      (fun t' ht' => loadedLog_load ht') (by simp)

theorem rollbackIfNeeded_accounted (hw : WellTimed bootIdOf window s₀) :
    Accounted bootIdOf window .rollbackIfNeeded m s₀ m.rollbackIfNeeded (s₀, []) := by
  refine withLoaded_accounted hw fun t hj h => ?_
  by_cases hc : t.state = .confirming
  · rw [if_pos hc]
    exact rollbackLoaded_accounted hw hj (.inr hc) h rfl (by simp) rfl (by simp)
      (fun t' ht' => loadedLog_load ht') (fun _ hst => absurd hst (by simp [hc]))
  rw [if_neg hc]
  by_cases hst : t.state = .staged
  · rw [if_neg (not_not.mpr hst)]
    refine ensures_clock h fun b n now hb hnow hn h₁ => ?_
    have hload : ∀ t', ⟨.load, some (LoadResult.valid t')⟩ ∈
        loadedLog t ++ [⟨.bootId, some b⟩] ++ [⟨.boottimeNs, some n⟩] → t' = t := by
      intro t' ht'
      exact loadedLog_load (by simpa using ht')
    split
    · rename_i hcur
      exact ensures_answered h₁ ⟨h₁, returned_of_current rfl (by simp) hj hst hload (by simp)
        (by simp) hcur⟩
    · exact rollbackLoaded_accounted hw hj (.inl hst) h₁ rfl (by simp) rfl (by simp) hload
        fun _ _ => ⟨b, n, by simp, by simp⟩
  · rw [if_pos hst]
    -- a completed transaction is only cleared away
    have hidle : ∀ (r : OperationResult) s' ok, r.2.rollbackWindowNs = m.rollbackWindowNs →
        Progress bootIdOf window .rollbackIfNeeded s₀ (s', loadedLog t ++ [⟨.clear, some ok⟩]) →
        Accounted bootIdOf window .rollbackIfNeeded m s₀ (.done r)
          (s', loadedLog t ++ [⟨.clear, some ok⟩]) := by
      intro r s' ok hr hx
      refine ensures_answered hx ⟨hx, returned_of_idle hr (by simp) ?_⟩
      intro t' ht'
      obtain rfl : t' = t := loadedLog_load (by simpa using ht')
      exact ⟨hst, fun _ => hc⟩
    exact ensures_clear_journal h (fun s' h₁ _ => hidle _ _ _ rfl h₁) fun h₁ => hidle _ _ _ rfl h₁

theorem operation_accounted (hmw : m.rollbackWindowNs = window)
    (hw : WellTimed bootIdOf window s₀) :
    Accounted bootIdOf window q m s₀ (q.program m) (s₀, []) := by
  cases q with
  | stage candidate => exact stage_accounted hmw hw
  | confirm => exact confirm_accounted hw
  | rollbackNow => exact rollbackNow_accounted hw
  | rollbackIfNeeded => exact rollbackIfNeeded_accounted hw

end Operations

/-! ### Whole runs -/

section Runs

variable {bootIdOf : Nat → Bytes} {window : UInt64} {q : Operation} {m m₀ : TransactionManager}
  {s : Machine} {x x₀ : Machine × Log} {es : List MachineEpisode}

/-- What holds between two operations. -/
def Kept (bootIdOf : Nat → Bytes) (window : UInt64) (m : TransactionManager)
    (x : Machine × Log) : Prop :=
  m.rollbackWindowNs = window ∧ WellTimed bootIdOf window x.1

/-- The account of one served operation. -/
structure EpisodeAccount (bootIdOf : Nat → Bytes) (window : UInt64) (e : MachineEpisode) :
    Prop where
  timed : WellTimed bootIdOf window e.before.1
  progress : Progress bootIdOf window e.request e.before.1 (e.after.1, events e)
  returned : ∀ r, e.result = some r → ∃ m m', Returned bootIdOf e.request m e.before.1
    (r, m') (e.after.1, events e)

/-- The account of a run of an operation, whatever was logged before it. -/
theorem operation_account {o : Option OperationResult} {x' : Machine × Log}
    (hk : Kept bootIdOf window m x)
    (hr : (q.program m).Runs (machineWorld bootIdOf).traced x o x') :
    EpisodeAccount bootIdOf window ⟨q, x, o.map Prod.fst, x'⟩ ∧
      ∀ r, o = some r → r.2.rollbackWindowNs = m.rollbackWindowNs := by
  obtain ⟨s, log⟩ := x
  obtain ⟨added, hx, hrun⟩ := hr.traced_suffix
  have hev : events ⟨q, (s, log), o.map Prod.fst, x'⟩ = added := by
    rw [events, hx]
    exact List.drop_left
  have hacc := (operation_accounted hk.1 hk.2).sound hrun
  cases o with
  | none =>
    refine ⟨⟨hk.2, ?_, by simp⟩, by simp⟩
    rw [hev]
    exact hacc
  | some r =>
    refine ⟨⟨hk.2, ?_, ?_⟩, ?_⟩
    · rw [hev]
      exact hacc.1
    · rintro r' ⟨⟩
      rw [hev]
      exact ⟨m, r.2, hacc.2⟩
    · rintro r' ⟨⟩
      exact hacc.2.window

/-- A boot that begins has an id that no journalled transaction carries. -/
theorem WellTimed.reboot (h : WellTimed bootIdOf window s) {now : UInt64} :
    WellTimed bootIdOf window { s with boot := s.boot + 1, clock := now } := by
  intro t ht
  obtain ⟨hd, hne, b, hb, hid⟩ := h t ht
  exact ⟨hd, hne, b, Nat.le_succ_of_le hb, hid⟩

theorem Kept.passes {m' : TransactionManager} {x' : Machine × Log}
    (h : Kept bootIdOf window m x) (hp : Passes m x m' x') : Kept bootIdOf window m' x' := by
  cases hp with
  | time _ => exact h
  | reboot => exact ⟨h.1, h.2.reboot⟩
  | turn hw => exact ⟨hw.trans h.1, h.2⟩

/-- A property of the machine that is kept by whatever an operation may do and by
the passing of time holds throughout a run, together with the accounts. -/
theorem run_invariant (Inv : Machine → Prop) (h₀ : Inv x₀.1) (hk₀ : Kept bootIdOf window m₀ x₀)
    (hop : ∀ s s', WellTimed bootIdOf window s → Inv s → Evolves s s' → Inv s')
    (hpass : ∀ m x m' x', WellTimed bootIdOf window x.1 → Inv x.1 → Passes m x m' x' → Inv x'.1)
    (h : managerService.Run (machineWorld bootIdOf).traced Passes m₀ x₀ es m x) :
    (Kept bootIdOf window m x ∧ Inv x.1) ∧
      ∀ e ∈ es, EpisodeAccount bootIdOf window e ∧ Inv e.before.1 := by
  have hadd : ∀ {es : List MachineEpisode} {e : MachineEpisode},
      (∀ e ∈ es, EpisodeAccount bootIdOf window e ∧ Inv e.before.1) →
      EpisodeAccount bootIdOf window e ∧ Inv e.before.1 →
      ∀ e' ∈ es ++ [e], EpisodeAccount bootIdOf window e' ∧ Inv e'.before.1 := by
    intro es e hes he e' he'
    rcases List.mem_append.mp he' with he' | he'
    · exact hes e' he'
    · rw [List.mem_singleton.mp he']
      exact he
  -- on the run: operations evolve the machine, whether they return or die, and between
  -- them only time passes
  induction h with
  | start => exact ⟨⟨hk₀, h₀⟩, by simp⟩
  | env _ he ih =>
    obtain ⟨⟨hk, hinv⟩, hes⟩ := ih
    exact ⟨⟨hk.passes he, hpass _ _ _ _ hk.2 hinv he⟩, hes⟩
  | returned _ hr ih =>
    obtain ⟨⟨hk, hinv⟩, hes⟩ := ih
    obtain ⟨hacc, hwin⟩ := operation_account hk hr
    have hinv' := hop _ _ hk.2 hinv hacc.progress.evolves
    exact ⟨⟨⟨(hwin _ rfl).trans hk.1, hacc.progress.timed⟩, hinv'⟩, hadd hes ⟨hacc, hinv⟩⟩
  | died _ hr ih =>
    obtain ⟨⟨hk, hinv⟩, hes⟩ := ih
    obtain ⟨hacc, -⟩ := operation_account hk hr
    have hinv' := hop _ _ hk.2 hinv hacc.progress.evolves
    exact ⟨⟨⟨hk.1, hacc.progress.timed⟩, hinv'⟩, hadd hes ⟨hacc, hinv⟩⟩

/-- Record number `k` is settled: it is not open, or another one followed it. -/
def Settled (k : Nat) (s : Machine) : Prop := k < s.serial ∨ (s.serial = k ∧ ¬ s.Open)

theorem Settled.evolves {k : Nat} {s' : Machine} (h : Settled k s) (he : Evolves s s') :
    Settled k s' := by
  rcases he.journal with ⟨hserial, hmove⟩ | ⟨hserial, -⟩
  · rcases h with h | ⟨hk, hopen⟩
    · exact .inl (by omega)
    · refine .inr ⟨by omega, ?_⟩
      rintro ⟨t', ht', hp'⟩
      obtain ⟨t, ht, -, -, hp⟩ := hmove t' ht'
      exact hopen ⟨t, ht, hp hp'⟩
  · rcases h with h | ⟨hk, -⟩
    · exact .inl (by omega)
    · exact .inl (by omega)

/-- Record number `k` can no longer be confirmed: another one followed it, or it
is not staged any more, its deadline has passed or its boot is over. -/
def Lapsed (bootIdOf : Nat → Bytes) (k : Nat) (s : Machine) : Prop :=
  k < s.serial ∨ (s.serial = k ∧ ∀ t, s.journal = some t → t.state = .staged →
    t.deadlineBoottimeNs ≤ s.clock ∨ t.bootId ≠ bootIdOf s.boot)

theorem Lapsed.evolves {k : Nat} {s' : Machine} (h : Lapsed bootIdOf k s) (he : Evolves s s') :
    Lapsed bootIdOf k s' := by
  rcases he.journal with ⟨hserial, hmove⟩ | ⟨hserial, -⟩
  · rcases h with h | ⟨hk, hlapsed⟩
    · exact .inl (by omega)
    · refine .inr ⟨by omega, ?_⟩
      intro t' ht' hst'
      obtain ⟨t, ht, heq, hst, -⟩ := hmove t' ht'
      rw [heq, he.boot]
      rcases hlapsed t ht (hst hst') with hd | hb
      · exact .inl (UInt64.le_trans hd he.clock)
      · exact .inr hb
  · rcases h with h | ⟨hk, -⟩
    · exact .inl (by omega)
    · exact .inl (by omega)

theorem Lapsed.passes {k : Nat} {m' : TransactionManager} {x' : Machine × Log}
    (hinj : Function.Injective bootIdOf) (hw : WellTimed bootIdOf window x.1)
    (h : Lapsed bootIdOf k x.1) (hp : Passes m x m' x') : Lapsed bootIdOf k x'.1 := by
  cases hp with
  | time hnow =>
    rcases h with h | ⟨hk, hlapsed⟩
    · exact .inl h
    · refine .inr ⟨hk, fun t ht hst => ?_⟩
      rcases hlapsed t ht hst with hd | hb
      · exact .inl (UInt64.le_trans hd hnow)
      · exact .inr hb
  | reboot =>
    rcases h with h | ⟨hk, -⟩
    · exact .inl h
    · -- whatever is in the journal belongs to an earlier boot
      refine .inr ⟨hk, fun t ht _ => .inr ?_⟩
      obtain ⟨-, -, b, hb, hid⟩ := hw t ht
      rw [hid]
      intro heq
      have hb' := hinj heq
      simp only at hb hb'
      omega
  | turn _ => exact h

theorem kept_blankMachine (b : Nat) (c : UInt64) :
    Kept bootIdOf window { rollbackWindowNs := window } (blankMachine b c) :=
  ⟨rfl, by simp [WellTimed, blankMachine]⟩

/-- What a run leaves behind, and the account of each of its operations. -/
theorem run_accounts {b : Nat} {c : UInt64}
    (h : managerService.Run (machineWorld bootIdOf).traced Passes { rollbackWindowNs := window }
      (blankMachine b c) es m x) :
    Kept bootIdOf window m x ∧ ∀ e ∈ es, EpisodeAccount bootIdOf window e := by
  obtain ⟨⟨hk, -⟩, hes⟩ := run_invariant (fun _ => True) trivial (kept_blankMachine b c)
    (fun _ _ _ _ _ => trivial) (fun _ _ _ _ _ _ _ => trivial) h
  exact ⟨hk, fun e he => (hes e he).1⟩

/-- A settled record is never rolled back. -/
theorem run_settled {k : Nat} (hk : Kept bootIdOf window m₀ x₀) (hs : Settled k x₀.1)
    (h : managerService.Run (machineWorld bootIdOf).traced Passes m₀ x₀ es m x)
    {e : MachineEpisode} (he : e ∈ es) {p c : NetworkConfig} {r : Option Bool}
    (hev : ⟨.rollback p c, r⟩ ∈ events e) : e.after.1.serial ≠ k := by
  have hpass : ∀ m x m' x', WellTimed bootIdOf window x.1 → Settled k x.1 → Passes m x m' x' →
      Settled k x'.1 := by
    intro m x m' x' _ hs hp
    cases hp <;> exact hs
  obtain ⟨-, hes⟩ := run_invariant (Settled k) hs hk (fun _ _ _ hs he => hs.evolves he) hpass h
  obtain ⟨hacc, hs⟩ := hes e he
  rcases hacc.progress.rollbacks p c r hev with ⟨⟨t, ht, hp, -⟩, hserial, -⟩ | ⟨-, hserial⟩
  · rcases hs with hs | ⟨-, hopen⟩
    · simp only at hserial
      omega
    · exact absurd ⟨t, ht, hp⟩ hopen
  · simp only at hserial
    rcases hs with hs | ⟨hs, -⟩ <;> omega

/-- A lapsed record is never confirmed. -/
theorem run_lapsed {k : Nat} (hinj : Function.Injective bootIdOf)
    (hk : Kept bootIdOf window m₀ x₀) (hl : Lapsed bootIdOf k x₀.1)
    (h : managerService.Run (machineWorld bootIdOf).traced Passes m₀ x₀ es m x)
    {e : MachineEpisode} (he : e ∈ es) (hq : e.request = .confirm) (hr : e.result = some .ok) :
    e.before.1.serial ≠ k := by
  obtain ⟨-, hes⟩ := run_invariant (Lapsed bootIdOf k) hl hk (fun _ _ _ hl he => hl.evolves he)
    (fun _ _ _ _ hw hl hp => hl.passes hinj hw hp) h
  obtain ⟨hacc, hl⟩ := hes e he
  obtain ⟨m, m', hret⟩ := hacc.returned _ hr
  obtain ⟨-, -, t, now, ht, hst, hboot, hclock, hnow⟩ := hret.confirmed hq rfl
  rcases hl with hl | ⟨-, hlapsed⟩
  · omega
  · rcases hlapsed t ht hst with hd | hb
    · exact absurd (UInt64.lt_of_le_of_lt hclock hnow) (UInt64.not_lt.mpr hd)
    · exact absurd hboot hb

/-- **The rollback window.**  In every run, whatever fails and wherever the
process dies:

* `backend.confirm` is called by `confirm` only, for the journalled staged
  transaction of this boot, at a time before its deadline, which is one window
  after its staging;
* after a `confirm` that returned ok its record is never rolled back;
* a record whose deadline has passed, whose boot is over or that was left
  confirming is never confirmed afterwards;
* `confirm` and `rollback_if_needed` roll back the staged transaction they load
  unless the readings place it in its window, `rollback_if_needed` one left
  confirming; and outside `stage` only the journalled configurations are rolled
  back. -/
theorem rollback_window (hinj : Function.Injective bootIdOf) {b : Nat} {c : UInt64}
    (h : managerService.Run (machineWorld bootIdOf).traced Passes { rollbackWindowNs := window }
      (blankMachine b c) es m x) :
    (∀ e ∈ es, ∀ p c r, ⟨.confirm p c, r⟩ ∈ events e → e.request = .confirm ∧
      ∃ t now, e.before.1.journal = some t ∧ t.state = .staged ∧
        t.previous = p ∧ t.candidate = c ∧ t.bootId = bootIdOf e.before.1.boot ∧
        ⟨.boottimeNs, some now⟩ ∈ events e ∧ 0 < now ∧ now < t.deadlineBoottimeNs ∧
        t.deadlineBoottimeNs.toNat = t.stagedBoottimeNs.toNat + window.toNat) ∧
    (∀ es₁ e es₂, es = es₁ ++ e :: es₂ → e.request = .confirm → e.result = some .ok →
      ∀ e' ∈ es₂, ∀ p c r, ⟨.rollback p c, r⟩ ∈ events e' →
        e'.after.1.serial ≠ e.before.1.serial) ∧
    (∀ t, x.1.journal = some t →
      (t.state = .staged ∧ (t.deadlineBoottimeNs ≤ x.1.clock ∨ t.bootId ≠ bootIdOf x.1.boot) ∨
        t.state = .confirming) →
      ∀ es' m' x', managerService.Run (machineWorld bootIdOf).traced Passes m x es' m' x' →
        ∀ e ∈ es', e.request = .confirm → e.result = some .ok →
          e.before.1.serial ≠ x.1.serial) ∧
    (∀ e ∈ es, ∀ t, ⟨.load, some (LoadResult.valid t)⟩ ∈ events e → e.result ≠ none →
      (e.request = .confirm ∨ e.request = .rollbackIfNeeded → t.state = .staged →
        e.before.1.journal = some t ∧ RolledBackIfLapsed t (events e)) ∧
      (e.request = .rollbackIfNeeded → t.state = .confirming →
        e.before.1.journal = some t ∧
          ∃ r, ⟨.rollback t.previous t.candidate, some r⟩ ∈ events e)) ∧
    (∀ e ∈ es, ∀ p c r, ⟨.rollback p c, r⟩ ∈ events e →
      (∀ candidate, e.request ≠ .stage candidate) →
      ∃ t, e.before.1.journal = some t ∧ t.Pending ∧ t.previous = p ∧ t.candidate = c) := by
  obtain ⟨hk, hacc⟩ := run_accounts h
  refine ⟨?_, ?_, ?_, ?_, ?_⟩
  · -- every backend confirmation lies in the window of the record it read
    intro e he p c r hev
    obtain ⟨hq, t, now, ht, hst, hp, hc, hboot, hread, hpos, hlt⟩ :=
      (hacc e he).progress.confirms p c r hev
    exact ⟨hq, t, now, ht, hst, hp, hc, hboot, hread, hpos, hlt, ((hacc e he).timed t ht).1⟩
  · -- a confirmed record is gone from the journal, so its number is settled for good
    intro es₁ e es₂ hes hq hr e' he' p c r hev
    subst hes
    obtain ⟨m₁, h₁, h₂⟩ := h.cut_after
    obtain ⟨hk₁, -⟩ := run_accounts h₁
    obtain ⟨_, _, hret⟩ := (hacc e (by simp)).returned _ hr
    obtain ⟨hnone, hserial, -⟩ := hret.confirmed hq rfl
    have hsettled : Settled e.before.1.serial e.after.1 := by
      refine .inr ⟨hserial, ?_⟩
      rintro ⟨t, ht, -⟩
      rw [show e.after.1.journal = none from hnone] at ht
      cases ht
    exact run_settled hk₁ hsettled h₂ he' hev
  · -- a record that has lapsed stays lapsed: the clock only grows and boot ids do not return
    intro t ht hlapsed es' m' x' h' e he hq hr
    refine run_lapsed hinj hk (.inr ⟨rfl, ?_⟩) h' he hq hr
    intro t' ht' hst'
    rw [ht] at ht'
    cases ht'
    rcases hlapsed with ⟨-, hlapsed⟩ | hc
    · exact hlapsed
    · rw [hst'] at hc
      cases hc
  · -- what an operation that came back has done with the record it loaded
    intro e he t hload hret
    obtain ⟨r, hr⟩ := Option.ne_none_iff_exists'.mp hret
    obtain ⟨m, m', hret⟩ := (hacc e he).returned _ hr
    exact ⟨fun hq hst => hret.lapsed hq t hload hst, fun hq hst => hret.confirming hq t hload hst⟩
  · intro e he p c r hev hq
    rcases (hacc e he).progress.rollbacks p c r hev with ⟨ht, -⟩ | ⟨⟨candidate, hc⟩, -⟩
    · exact ht
    · exact absurd hc (hq candidate)

/-- Boot ids for a run: one more byte with each boot. -/
def countedBootId (boot : Nat) : Bytes := List.replicate (boot + 1) 1

theorem countedBootId_injective : Function.Injective countedBootId := by
  intro a b hab
  have hlen := congrArg List.length hab
  simpa [countedBootId] using hlen

/-- A stage and a confirmation 100 ns later: the `backend.confirm` of this run
lies in the window. -/
theorem rollback_window_confirmed_stage :
    ∃ (es : List MachineEpisode) (m : TransactionManager) (x : Machine × Log) (e : MachineEpisode),
      managerService.Run (machineWorld countedBootId).traced Passes {} (blankMachine 0 100) es m x ∧
      e ∈ es ∧ ⟨.confirm {} {}, some true⟩ ∈ events e ∧ e.result = some .ok ∧
      ∃ t now, e.before.1.journal = some t ∧ t.bootId = countedBootId 0 ∧
        ⟨.boottimeNs, some now⟩ ∈ events e ∧ now < t.deadlineBoottimeNs := by
  have hv := validate_default
  let record : Transaction := ⟨1, [1], 100, 60000000100, .staged, {}, {}⟩
  let staged : Machine := ⟨some record, 0, 100, 1⟩
  let log : Log := [⟨.lock, some true⟩, ⟨.load, some LoadResult.none⟩,
    ⟨.readCurrent, some (some {})⟩, ⟨.bootId, some [1]⟩, ⟨.boottimeNs, some 100⟩,
    ⟨.save record, some true⟩, ⟨.applyStage {} {}, some true⟩]
  have hstage : (Operation.program {} (.stage {})).Runs (machineWorld countedBootId).traced
      (blankMachine 0 100) (some (.ok, { nextId := 2 })) (staged, log) := by
    simp only [Operation.program, TransactionManager.stage, hv, Bool.not_true]
    refine .logged true rfl ?_
    refine .logged LoadResult.none ⟨rfl, .inr (.inr rfl)⟩ ?_
    refine .logged (some ({} : NetworkConfig)) rfl ?_
    simp only [hv, Bool.not_true]
    refine .logged ([1] : Bytes) ⟨rfl, .inl rfl⟩ ?_
    -- the stage is dated 100 ns after the boot
    refine .logged (100 : UInt64) ⟨100, by decide, rfl, .inl rfl⟩ ?_
    refine .logged true (.inl rfl) ?_
    refine .logged true rfl ?_
    exact .done _ _
  have hconfirm : (Operation.program { nextId := 2 } .confirm).Runs
      (machineWorld countedBootId).traced (staged, log) (some (.ok, { nextId := 2 }))
      (⟨none, 0, 200, 1⟩, log ++ [⟨.lock, some true⟩] ++ [⟨.load, some (LoadResult.valid record)⟩] ++
        [⟨.bootId, some [1]⟩] ++ [⟨.boottimeNs, some 200⟩] ++
        [⟨.save { record with state := .confirming }, some true⟩] ++
        [⟨.confirm {} {}, some true⟩] ++
        [⟨.save { record with state := .confirmed }, some true⟩] ++ [⟨.clear, some true⟩]) := by
    refine .logged true rfl ?_
    refine .logged (LoadResult.valid record) ⟨rfl, .inr (.inr rfl)⟩ ?_
    refine .logged ([1] : Bytes) ⟨rfl, .inl rfl⟩ ?_
    -- and the confirmation reads the clock before the deadline
    refine .logged (200 : UInt64) ⟨200, by decide, rfl, .inl rfl⟩ ?_
    refine .logged true (.inl rfl) ?_
    refine .logged true rfl ?_
    refine .logged true (.inl rfl) ?_
    refine .logged true (.inl rfl) ?_
    exact .done _ _
  have hrun := Service.Run.returned (P := managerService) (q := .confirm) (E := Passes)
    (.returned (q := .stage {}) .start hstage) hconfirm
  have hin := (rollback_window countedBootId_injective hrun).1
  refine ⟨_, _, _, _, hrun, List.mem_append_right _ (List.mem_singleton.mpr rfl), ?_, rfl, ?_⟩
  · simp [events]
  · obtain ⟨-, t, now, ht, -, -, -, hboot, hread, -, hlt, -⟩ :=
      hin _ (List.mem_append_right _ (List.mem_singleton.mpr rfl)) {} {} (some true)
        (by simp [events])
    exact ⟨t, now, ht, hboot, hread, hlt⟩

end Runs

end Uhf.Network
