/-
What the worker counts (`PersistenceWorker::run`).

The event detector is the worker's own, so that a trace does not show when it is called;
`bodyNoting` is the round of the worker with a note wherever it calls the detector.  From the
calls and the notes of a run alone a `Ledger` is drawn up: what has been served and observed,
which frames were due, and what has been saved.

* `bodyNoting_erase` — without its notes the round is that of the worker;
* `pairwise_news` — what is news comes in increasing order;
* `Balanced` — how the counters of the worker stand to the ledger;
* `bodyNoting_balanced` — a round keeps the balance;
* `persistence_accounting` — the accounts of every run.
-/
import Mathlib.Data.List.Induction
import UhfGateway.Effects.Notes
import UhfGateway.Storage.PersistenceWorker

namespace Uhf.Storage

open Acquisition Domain Effects

/-! ### The worker with notes -/

/-- A call of `EventDetector::observe`, and the period of the frames in force at that time. -/
structure Observation where
  snapshot : PublishedSnapshot
  now : Nanoseconds
  fresh : Bool
  nowUtc : Nanoseconds
  period : Int

inductive WorkerNote
  | observed (observation : Observation)
  /-- What `EventDetector::advance` has returned. -/
  | advanced (bundles : List EventBundle)

@[reducible] def notingCalls : Interface := workerCalls.noting WorkerNote

namespace PersistenceWorker

def observeNoting (w : PersistenceWorker) (view : ServingView) (now nowUtc : Nanoseconds) :
    Prog notingCalls PersistenceWorker :=
  match view.snapshot with
  | none => .done w
  | some snapshot =>
    if snapshot.generation ≠ 0 ∧ w.lastGeneration < snapshot.generation then
      let fresh := decide (view.status.availability = .fresh)
      let detector := w.eventDetector.observe snapshot now fresh nowUtc
      Prog.note (.observed ⟨snapshot, now, fresh, nowUtc, w.options.periodicPeriod⟩)
        (let w := { w with
          lastGeneration := snapshot.generation
          eventDetector := detector
          alarmActive := !detector.strongArmed }
        if w.periodElapsed now = true ∧ snapshot.generation ≠ w.lastPeriodicGeneration then
          (w.savePeriodic snapshot now nowUtc).plain
        else .done w)
    else .done w

def workNoting (w : PersistenceWorker) : Prog notingCalls (Option PersistenceWorker) :=
  .call (I := notingCalls) (.inl .stopRequested) fun (stop : Bool) =>
    if stop then .done none
    else
      .call (I := notingCalls) (.inl .steadyNow) fun (now : Nanoseconds) =>
        w.applyRuntimeConfiguration.plain >>= fun w =>
          .call (I := notingCalls) (.inl .systemNow) fun (nowUtc : Nanoseconds) =>
            (w.cleanUp now nowUtc).plain >>= fun cleaned =>
              match cleaned with
              | none => .done none
              | some w =>
                .call (I := notingCalls) (.inl .servingView) fun (view : ServingView) =>
                  w.observeNoting view now nowUtc >>= fun w =>
                    let (detector, bundles) := w.eventDetector.advance now
                    Prog.note (.advanced bundles)
                      (({ w with eventDetector := detector }.saveCompletedEvents bundles).plain >>=
                        fun w =>
                          .call (I := notingCalls) (.inl .steadyNow) fun (later : Nanoseconds) =>
                            .done (some { w with sleepUntil := some (later + kWorkerInterval) }))

def bodyNoting (w : PersistenceWorker) : Prog notingCalls (Option PersistenceWorker) :=
  match w.sleepUntil with
  | some sleepUntil => (w.sleeping sleepUntil).plain
  | none => w.workNoting

theorem observeNoting_erase (w : PersistenceWorker) (view : ServingView)
    (now nowUtc : Nanoseconds) :
    (w.observeNoting view now nowUtc).erase = w.observeView view now nowUtc := by
  rw [observeNoting, observeView]
  cases view.snapshot with
  | none => rfl
  | some snapshot =>
    simp only
    split_ifs with hnew hdue
    · rw [Prog.note, Prog.erase, Prog.erase_plain]
    · rw [Prog.note, Prog.erase, Prog.erase]
    · rfl

theorem workNoting_erase (w : PersistenceWorker) : w.workNoting.erase = w.working := by
  rw [workNoting, working, Prog.erase]
  refine congrArg (Prog.call (I := workerCalls) .stopRequested) (funext fun (stop : Bool) => ?_)
  split_ifs with hstop
  · rfl
  · rw [Prog.erase]
    refine congrArg (Prog.call (I := workerCalls) .steadyNow) (funext fun now => ?_)
    rw [Prog.erase_bind, Prog.erase_plain]
    refine congrArg (w.applyRuntimeConfiguration >>= ·) (funext fun w => ?_)
    rw [Prog.erase]
    refine congrArg (Prog.call (I := workerCalls) .systemNow) (funext fun nowUtc => ?_)
    rw [Prog.erase_bind, Prog.erase_plain]
    refine congrArg (w.cleanUp now nowUtc >>= ·) (funext fun cleaned => ?_)
    cases cleaned with
    | none => rfl
    | some w =>
      simp only
      rw [Prog.erase]
      refine congrArg (Prog.call (I := workerCalls) .servingView) (funext fun view => ?_)
      rw [Prog.erase_bind, observeNoting_erase]
      refine congrArg (w.observeView view now nowUtc >>= ·) (funext fun w => ?_)
      rw [Prog.note, Prog.erase, Prog.erase_bind, Prog.erase_plain]
      rfl

/-- The notes change nothing. -/
theorem bodyNoting_erase (w : PersistenceWorker) : w.bodyNoting.erase = w.body := by
  rw [bodyNoting, body]
  cases w.sleepUntil with
  | none => exact w.workNoting_erase
  | some sleepUntil => exact Prog.erase_plain _

end PersistenceWorker

/-! ### The ledger -/

/-- A frame that was due, and whether it has been saved. -/
structure DueFrame where
  observation : Observation
  saved : Bool := false

structure Ledger where
  /-- What the steady clock has shown. -/
  times : List Nanoseconds := []
  views : List ServingView := []
  observed : List Observation := []
  due : List DueFrame := []
  /-- What the detector has returned. -/
  bundles : List EventBundle := []
  savedEvents : List EventBundle := []

namespace Ledger

def savedFrames (l : Ledger) : List Observation :=
  (l.due.filter (·.saved)).map (·.observation)

/-- The period has elapsed since the last frame was saved. -/
def elapsed (l : Ledger) (o : Observation) : Bool :=
  match l.savedFrames.getLast? with
  | none => true
  | some last => decide (o.period ≤ 0) || decide (last.now + seconds o.period ≤ o.now)

/-- The frame that was due last has been saved. -/
def markSaved : List DueFrame → List DueFrame
  | [] => []
  | [frame] => [{ frame with saved := true }]
  | frame :: frames => frame :: markSaved frames

def add (l : Ledger) : Act notingCalls → Ledger
  | ⟨.inl .steadyNow, (now : Nanoseconds)⟩ => { l with times := l.times ++ [now] }
  | ⟨.inl .servingView, (view : ServingView)⟩ => { l with views := l.views ++ [view] }
  | ⟨.inl (.saveFrame _ _), (saved : Bool)⟩ =>
    if saved then { l with due := markSaved l.due } else l
  | ⟨.inl (.saveEvent bundle), (saved : Bool)⟩ =>
    if saved then { l with savedEvents := l.savedEvents ++ [bundle] } else l
  | ⟨.inr (.observed o), _⟩ =>
    { l with
      observed := l.observed ++ [o]
      due := if l.elapsed o then l.due ++ [{ observation := o }] else l.due }
  | ⟨.inr (.advanced bundles), _⟩ => { l with bundles := l.bundles ++ bundles }
  | _ => l

theorem markSaved_append (frames : List DueFrame) (frame : DueFrame) :
    markSaved (frames ++ [frame]) = frames ++ [{ frame with saved := true }] := by
  induction frames with
  | nil => rfl
  | cons first frames ih =>
    cases frames with
    | nil => rfl
    | cons second frames =>
      show first :: markSaved (second :: frames ++ [frame]) = _
      rw [ih]
      rfl

end Ledger

def ledger (noted : Trace notingCalls) : Ledger := noted.foldl Ledger.add {}

theorem ledger_append_singleton (before : Trace notingCalls) (act : Act notingCalls) :
    ledger (before ++ [act]) = (ledger before).add act := by
  rw [ledger, List.foldl_append]
  rfl

/-! ### What is news -/

def newest (shown : List PublishedSnapshot) : UInt64 := (shown.getLast?.map (·.generation)).getD 0

def addNews (shown : List PublishedSnapshot) (view : ServingView) : List PublishedSnapshot :=
  match view.snapshot with
  | none => shown
  | some snapshot => if newest shown < snapshot.generation then shown ++ [snapshot] else shown

/-- The snapshots with a greater generation than all that have been served before them. -/
def news (views : List ServingView) : List PublishedSnapshot := views.foldl addNews []

/-- The generations as a snapshot store counts them: none comes after a later one. -/
def InOrder (views : List ServingView) : Prop :=
  (views.filterMap (·.snapshot)).Pairwise (·.generation ≤ ·.generation)

theorem news_append_singleton (views : List ServingView) (view : ServingView) :
    news (views ++ [view]) = addNews (news views) view := by
  rw [news, List.foldl_append]
  rfl

theorem newest_append_singleton (shown : List PublishedSnapshot) (snapshot : PublishedSnapshot) :
    newest (shown ++ [snapshot]) = snapshot.generation := by
  simp [newest]

theorem le_newest {shown : List PublishedSnapshot}
    (h : shown.Pairwise (·.generation < ·.generation)) :
    ∀ snapshot ∈ shown, snapshot.generation ≤ newest shown := by
  rcases List.eq_nil_or_concat shown with rfl | ⟨first, last, rfl⟩
  · simp
  · rw [List.concat_eq_append] at h ⊢
    rw [newest_append_singleton]
    intro snapshot hmem
    rcases List.mem_append.mp hmem with hfirst | hlast
    · have hlt := (List.pairwise_append.mp h).2.2 snapshot hfirst last (List.mem_singleton_self last)
      exact UInt64.le_of_lt hlt
    · rw [List.mem_singleton.mp hlast]
      exact UInt64.le_refl _

theorem pairwise_news (views : List ServingView) :
    (news views).Pairwise (·.generation < ·.generation) := by
  induction views using List.reverseRecOn with
  | nil => exact .nil
  | append_singleton views view ih =>
    rw [news_append_singleton, addNews]
    split
    · exact ih
    · split_ifs with hnew
      · refine List.pairwise_append.mpr ⟨ih, List.pairwise_singleton _ _, ?_⟩
        intro earlier hearlier later hlater
        rw [List.mem_singleton.mp hlater]
        exact UInt64.lt_of_le_of_lt (le_newest ih earlier hearlier) hnew
      · exact ih

theorem news_subset (views : List ServingView) : news views ⊆ views.filterMap (·.snapshot) := by
  induction views using List.reverseRecOn with
  | nil => exact List.nil_subset _
  | append_singleton views view ih =>
    rw [news_append_singleton, addNews, List.filterMap_append]
    split
    · exact fun snapshot h => List.mem_append_left _ (ih h)
    · next snapshot hview =>
      split_ifs with hnew
      · intro other hother
        rcases List.mem_append.mp hother with hold | hlast
        · exact List.mem_append_left _ (ih hold)
        · rw [List.mem_singleton.mp hlast]
          simp [hview]
      · exact fun snapshot h => List.mem_append_left _ (ih h)

theorem newest_mem {shown : List PublishedSnapshot} (h : newest shown ≠ 0) :
    newest shown ∈ shown.map (·.generation) := by
  rcases List.eq_nil_or_concat shown with rfl | ⟨first, last, rfl⟩
  · exact absurd rfl h
  · rw [List.concat_eq_append, newest_append_singleton]
    simp

theorem mem_addNews {shown : List PublishedSnapshot} {view : ServingView}
    {snapshot : PublishedSnapshot} (h : snapshot ∈ shown) : snapshot ∈ addNews shown view := by
  rw [addNews]
  split
  · exact h
  · split_ifs
    · exact List.mem_append_left _ h
    · exact h

/-- Served in order, every generation but zero is news once. -/
theorem count_news {views : List ServingView} (h : InOrder views) {view : ServingView}
    (hview : view ∈ views) {snapshot : PublishedSnapshot} (hsnapshot : view.snapshot = some snapshot)
    (hzero : snapshot.generation ≠ 0) :
    ((news views).map (·.generation)).count snapshot.generation = 1 := by
  have hnodup : ((news views).map (·.generation)).Nodup := by
    refine List.pairwise_map.mpr ((pairwise_news views).imp ?_)
    exact fun hlt => UInt64.ne_of_lt hlt
  refine List.count_eq_one_of_mem hnodup ?_
  induction views using List.reverseRecOn with
  | nil => simp at hview
  | append_singleton views last ih =>
    rw [InOrder, List.filterMap_append, List.pairwise_append] at h
    rw [news_append_singleton] at hnodup ⊢
    rcases List.mem_append.mp hview with hbefore | hlast
    · have hnews : ((news views).map (·.generation)).Nodup := by
        refine List.pairwise_map.mpr ((pairwise_news views).imp ?_)
        exact fun hlt => UInt64.ne_of_lt hlt
      obtain ⟨other, hother, heq⟩ := List.mem_map.mp (ih h.1 hbefore hnews)
      rw [← heq]
      exact List.mem_map_of_mem (mem_addNews hother)
    · obtain rfl := List.mem_singleton.mp hlast
      rw [addNews, hsnapshot]
      simp only
      split_ifs with hnew
      · simp
      · -- what is not newer has been served before
        have hle : newest (news views) ≤ snapshot.generation := by
          by_cases hnone : newest (news views) = 0
          · rw [hnone]
            exact UInt64.zero_le
          · obtain ⟨other, hother, heq⟩ := List.mem_map.mp (newest_mem hnone)
            rw [← heq]
            exact h.2.2 other (news_subset views hother) snapshot (by simp [hsnapshot])
        have heq : newest (news views) = snapshot.generation :=
          UInt64.le_antisymm hle (UInt64.not_lt.mp hnew)
        rw [← heq] at hzero ⊢
        exact newest_mem hzero

/-! ### The balance -/

/-- What the counters of the worker hang on. -/
structure Account where
  lastGeneration : UInt64
  lastPeriodicSave : Option Nanoseconds
  lastPeriodicGeneration : UInt64
  droppedGeneration : UInt64
  savedFrameCount : ℕ
  droppedFrameCount : ℕ
  savedEventCount : ℕ
  droppedEventCount : ℕ

def PersistenceWorker.account (w : PersistenceWorker) : Account where
  lastGeneration := w.lastGeneration
  lastPeriodicSave := w.lastPeriodicSave
  lastPeriodicGeneration := w.lastPeriodicGeneration
  droppedGeneration := w.droppedGeneration
  savedFrameCount := w.stats.savedFrameCount
  droppedFrameCount := w.stats.droppedFrameCount
  savedEventCount := w.stats.savedEventCount
  droppedEventCount := w.stats.droppedEventCount

/-- Two frames as far apart as the period in force at the later one wants it. -/
def Apart (earlier later : Observation) : Prop := earlier.now + seconds later.period ≤ later.now

namespace Ledger

/-- The clock has never gone back. -/
def Steady (l : Ledger) : Prop := l.times.Pairwise (· ≤ ·)

/-- Everything that is news has been observed. -/
structure Watched (l : Ledger) (a : Account) : Prop where
  observed : l.observed.map (·.snapshot) = news l.views
  lastGeneration : a.lastGeneration = newest (news l.views)
  times : (l.observed.map (·.now)).Sublist l.times

/-- Every frame that was due has been counted. -/
structure Framed (l : Ledger) (a : Account) : Prop where
  due : (l.due.map (·.observation)).Sublist l.observed
  lastSave : a.lastPeriodicSave = l.savedFrames.getLast?.map (·.now)
  periodicGeneration : a.lastPeriodicGeneration ≤ a.lastGeneration
  droppedGeneration : a.droppedGeneration ≤ a.lastGeneration
  saved : a.savedFrameCount = l.due.countP (·.saved)
  dropped : a.droppedFrameCount = l.due.countP (!·.saved)
  apart : l.Steady → l.savedFrames.Pairwise Apart

/-- Every bundle has been counted but those at hand. -/
structure Bundled (l : Ledger) (hand : List EventBundle) (a : Account) : Prop where
  saved : a.savedEventCount = l.savedEvents.length
  counted : a.savedEventCount + a.droppedEventCount + hand.length = l.bundles.length
  order : (l.savedEvents ++ hand).Sublist l.bundles

structure Balanced (l : Ledger) (hand : List EventBundle) (a : Account) : Prop where
  watched : l.Watched a
  framed : l.Framed a
  bundled : l.Bundled hand a

variable {l l' : Ledger} {a a' : Account} {hand : List EventBundle}

theorem Bundled.keep (h : l.Bundled hand a) (hbundles : l'.bundles = l.bundles)
    (hevents : l'.savedEvents = l.savedEvents) (hsaved : a'.savedEventCount = a.savedEventCount)
    (hdropped : a'.droppedEventCount = a.droppedEventCount) : l'.Bundled hand a' := by
  constructor
  · rw [hsaved, hevents, h.saved]
  · rw [hsaved, hdropped, hbundles, h.counted]
  · rw [hevents, hbundles]
    exact h.order

/-- The clock is read, and time has passed since the last observation. -/
theorem Balanced.time (h : l.Balanced hand a) (now : Nanoseconds) :
    (l.add ⟨.inl .steadyNow, now⟩).Balanced hand a ∧
      (l.observed.map (·.now) ++ [now]).Sublist (l.add ⟨.inl .steadyNow, now⟩).times := by
  refine ⟨⟨⟨h.watched.observed, h.watched.lastGeneration, ?_⟩, ?_, h.bundled.keep rfl rfl rfl rfl⟩, ?_⟩
  · exact h.watched.times.trans (List.sublist_append_left _ _)
  · obtain ⟨due, lastSave, periodicGeneration, droppedGeneration, saved, dropped, apart⟩ := h.framed
    refine ⟨due, lastSave, periodicGeneration, droppedGeneration, saved, dropped, ?_⟩
    intro hsteady
    exact apart (List.pairwise_append.mp hsteady).1
  · exact List.Sublist.append h.watched.times (List.Sublist.refl [now])

/-- A view that shows nothing new. -/
theorem Balanced.view (h : l.Balanced hand a) {view : ServingView}
    (hold : ∀ snapshot ∈ view.snapshot, ¬ a.lastGeneration < snapshot.generation) :
    (l.add ⟨.inl .servingView, view⟩).Balanced hand a := by
  have hnews : news (l.views ++ [view]) = news l.views := by
    rw [news_append_singleton, addNews]
    split
    · rfl
    · next snapshot hview =>
      rw [h.watched.lastGeneration] at hold
      rw [if_neg (hold snapshot hview)]
  refine ⟨⟨?_, ?_, h.watched.times⟩, ?_, h.bundled.keep rfl rfl rfl rfl⟩
  · exact h.watched.observed.trans hnews.symm
  · exact h.watched.lastGeneration.trans (congrArg newest hnews.symm)
  · obtain ⟨due, lastSave, periodicGeneration, droppedGeneration, saved, dropped, apart⟩ := h.framed
    exact ⟨due, lastSave, periodicGeneration, droppedGeneration, saved, dropped, apart⟩

/-- The ledger once a view has been served and its snapshot has been observed. -/
def watch (l : Ledger) (view : ServingView) (o : Observation) : Ledger :=
  (l.add ⟨.inl .servingView, view⟩).add ⟨.inr (.observed o), ()⟩

/-- What is new in a view is observed. -/
structure Shows (l : Ledger) (a : Account) (view : ServingView) (o : Observation) : Prop where
  snapshot : view.snapshot = some o.snapshot
  newer : a.lastGeneration < o.snapshot.generation
  now : (l.observed.map (·.now) ++ [o.now]).Sublist l.times

variable {view : ServingView} {o : Observation}

theorem Balanced.watch (h : l.Balanced hand a) (ho : l.Shows a view o) {b : Account}
    (hb : b.lastGeneration = o.snapshot.generation) : (l.watch view o).Watched b := by
  have hnews : news (l.views ++ [view]) = news l.views ++ [o.snapshot] := by
    rw [news_append_singleton, addNews, ho.snapshot]
    simp only
    rw [if_pos (by rw [← h.watched.lastGeneration]; exact ho.newer)]
  constructor
  · show (l.observed ++ [o]).map (·.snapshot) = news (l.views ++ [view])
    rw [hnews, List.map_append, h.watched.observed]
    rfl
  · show b.lastGeneration = newest (news (l.views ++ [view]))
    rw [hnews, newest_append_singleton, hb]
  · show ((l.observed ++ [o]).map (·.now)).Sublist l.times
    rw [List.map_append]
    exact ho.now

/-- The period has not elapsed. -/
theorem Balanced.early (h : l.Balanced hand a) (ho : l.Shows a view o)
    (hearly : l.elapsed o = false) :
    (l.watch view o).Balanced hand { a with lastGeneration := o.snapshot.generation } := by
  have hdue : (l.watch view o).due = l.due := by
    show (if l.elapsed o then _ else l.due) = l.due
    rw [hearly, if_neg (by simp)]
  have hsaved : (l.watch view o).savedFrames = l.savedFrames := by
    rw [savedFrames, savedFrames, hdue]
  have hle := UInt64.le_of_lt ho.newer
  refine ⟨h.watch ho rfl, ⟨?_, ?_, ?_, ?_, ?_, ?_, ?_⟩, h.bundled.keep rfl rfl rfl rfl⟩
  · rw [hdue]
    exact h.framed.due.trans (List.sublist_append_left _ _)
  · rw [hsaved]
    exact h.framed.lastSave
  · exact UInt64.le_trans h.framed.periodicGeneration hle
  · exact UInt64.le_trans h.framed.droppedGeneration hle
  · rw [hdue]
    exact h.framed.saved
  · rw [hdue]
    exact h.framed.dropped
  · rw [hsaved]
    exact h.framed.apart

theorem due_watch (hdue : l.elapsed o = true) :
    (l.watch view o).due = l.due ++ [{ observation := o }] := by
  show (if l.elapsed o then l.due ++ [{ observation := o }] else l.due) = _
  rw [hdue, if_pos rfl]

/-- A frame that is due is dropped. -/
theorem Balanced.drop (h : l.Balanced hand a) (ho : l.Shows a view o) (hdue : l.elapsed o = true) :
    (l.watch view o).Balanced hand { a with
      lastGeneration := o.snapshot.generation
      droppedGeneration := o.snapshot.generation
      droppedFrameCount := a.droppedFrameCount + 1 } := by
  have hsaved : (l.watch view o).savedFrames = l.savedFrames := by
    rw [savedFrames, savedFrames, due_watch hdue, List.filter_append]
    simp
  refine ⟨h.watch ho rfl, ⟨?_, ?_, ?_, ?_, ?_, ?_, ?_⟩, h.bundled.keep rfl rfl rfl rfl⟩
  · rw [due_watch hdue, List.map_append]
    exact h.framed.due.append (List.Sublist.refl [o])
  · rw [hsaved]
    exact h.framed.lastSave
  · exact UInt64.le_trans h.framed.periodicGeneration (UInt64.le_of_lt ho.newer)
  · exact UInt64.le_refl _
  · rw [due_watch hdue, List.countP_append]
    simpa using h.framed.saved
  · rw [due_watch hdue, List.countP_append]
    simpa using h.framed.dropped
  · rw [hsaved]
    exact h.framed.apart

/-- The saved frames were observed one after the other, and before the one that is new. -/
theorem Balanced.before (h : l.Balanced hand a) (ho : l.Shows a view o) (hsteady : l.Steady) :
    (l.savedFrames.map (·.now) ++ [o.now]).Pairwise (· ≤ ·) := by
  have hobserved : l.savedFrames.Sublist l.observed :=
    (List.filter_sublist.map _).trans h.framed.due
  have htimes : (l.savedFrames.map (·.now) ++ [o.now]).Sublist l.times :=
    ((hobserved.map _).append (List.Sublist.refl [o.now])).trans ho.now
  exact hsteady.sublist htimes

theorem Balanced.apart (h : l.Balanced hand a) (ho : l.Shows a view o) (hdue : l.elapsed o = true)
    (hsteady : l.Steady) : ∀ earlier ∈ l.savedFrames, Apart earlier o := by
  have hbefore := h.before ho hsteady
  rw [elapsed] at hdue
  rcases List.eq_nil_or_concat l.savedFrames with hnone | ⟨first, last, hsome⟩
  · simp [hnone]
  · rw [List.concat_eq_append] at hsome
    rw [hsome, List.getLast?_append_of_ne_nil _ (List.cons_ne_nil _ _), List.getLast?_singleton] at hdue
    rw [hsome, List.map_append, List.append_assoc, List.pairwise_append] at hbefore
    intro earlier hearlier
    rw [hsome] at hearlier
    have hlast : last.now ≤ o.now := by simpa using hbefore.2.1
    -- the one saved last was not before any of the others
    have hle : earlier.now ≤ last.now := by
      rcases List.mem_append.mp hearlier with hfirst | hsame
      · exact hbefore.2.2 earlier.now (List.mem_map_of_mem hfirst) last.now (by simp)
      · rw [List.mem_singleton.mp hsame]
    rcases Bool.or_eq_true_iff.mp hdue with hnever | helapsed
    · have hperiod : seconds o.period ≤ 0 :=
        Int.mul_nonpos_of_nonpos_of_nonneg (of_decide_eq_true hnever) (by decide)
      have hsum := Int.add_le_add (Int.le_trans hle hlast) hperiod
      rwa [Int.add_zero] at hsum
    · exact Int.le_trans (Int.add_le_add_right hle _) (of_decide_eq_true helapsed)

/-- A frame that is due is saved. -/
theorem Balanced.save (h : l.Balanced hand a) (ho : l.Shows a view o) (hdue : l.elapsed o = true)
    (snapshot : PublishedSnapshot) (timestamp : Nanoseconds) :
    ((l.watch view o).add ⟨.inl (.saveFrame snapshot timestamp), true⟩).Balanced hand { a with
      lastGeneration := o.snapshot.generation
      lastPeriodicSave := some o.now
      lastPeriodicGeneration := o.snapshot.generation
      droppedGeneration := 0
      savedFrameCount := a.savedFrameCount + 1 } := by
  have hmarked : ((l.watch view o).add ⟨.inl (.saveFrame snapshot timestamp), true⟩).due =
      l.due ++ [⟨o, true⟩] := by
    show markSaved (l.watch view o).due = _
    rw [due_watch hdue, markSaved_append]
  have hsaved : ((l.watch view o).add ⟨.inl (.saveFrame snapshot timestamp), true⟩).savedFrames =
      l.savedFrames ++ [o] := by
    rw [savedFrames, savedFrames, hmarked, List.filter_append, List.map_append]
    simp
  refine ⟨?_, ⟨?_, ?_, ?_, ?_, ?_, ?_, ?_⟩, h.bundled.keep rfl rfl rfl rfl⟩
  · obtain ⟨observed, lastGeneration, times⟩ := h.watch ho (b := { a with
      lastGeneration := o.snapshot.generation }) rfl
    exact ⟨observed, lastGeneration, times⟩
  · rw [hmarked, List.map_append]
    exact h.framed.due.append (List.Sublist.refl [o])
  · rw [hsaved]
    simp
  · exact UInt64.le_refl _
  · exact UInt64.zero_le
  · rw [hmarked, List.countP_append]
    simpa using h.framed.saved
  · rw [hmarked, List.countP_append]
    simpa using h.framed.dropped
  · intro hsteady
    rw [hsaved]
    refine List.pairwise_append.mpr ⟨h.framed.apart hsteady, List.pairwise_singleton _ _, ?_⟩
    intro earlier hearlier later hlater
    obtain rfl := List.mem_singleton.mp hlater
    exact h.apart ho hdue hsteady earlier hearlier

/-- What the detector has returned is at hand. -/
theorem Balanced.advance (h : l.Balanced [] a) (bundles : List EventBundle) :
    (l.add ⟨.inr (.advanced bundles), ()⟩).Balanced bundles a := by
  obtain ⟨⟨observed, lastGeneration, times⟩, framed, saved, counted, order⟩ := h
  refine ⟨⟨observed, lastGeneration, times⟩, ?_, saved, ?_, ?_⟩
  · obtain ⟨due, lastSave, periodicGeneration, droppedGeneration, savedCount, dropped, apart⟩ := framed
    exact ⟨due, lastSave, periodicGeneration, droppedGeneration, savedCount, dropped, apart⟩
  · show _ = (l.bundles ++ bundles).length
    rw [List.length_append, ← counted]
    rfl
  · rw [List.append_nil] at order
    exact order.append (List.Sublist.refl bundles)

variable {bundle : EventBundle}

theorem Balanced.saveEvent (h : l.Balanced (bundle :: hand) a) :
    (l.add ⟨.inl (.saveEvent bundle), true⟩).Balanced hand
      { a with savedEventCount := a.savedEventCount + 1 } := by
  obtain ⟨⟨observed, lastGeneration, times⟩, framed, saved, counted, order⟩ := h
  refine ⟨⟨observed, lastGeneration, times⟩, ?_, ?_, ?_, ?_⟩
  · obtain ⟨due, lastSave, periodicGeneration, droppedGeneration, savedCount, dropped, apart⟩ := framed
    exact ⟨due, lastSave, periodicGeneration, droppedGeneration, savedCount, dropped, apart⟩
  · show a.savedEventCount + 1 = (l.savedEvents ++ [bundle]).length
    rw [saved, List.length_append, List.length_singleton]
  · show a.savedEventCount + 1 + a.droppedEventCount + hand.length = l.bundles.length
    rw [← counted, List.length_cons]
    omega
  · show ((l.savedEvents ++ [bundle]) ++ hand).Sublist l.bundles
    rw [List.append_assoc]
    exact order

theorem Balanced.dropEvent (h : l.Balanced (bundle :: hand) a) :
    l.Balanced hand { a with droppedEventCount := a.droppedEventCount + 1 } := by
  obtain ⟨⟨observed, lastGeneration, times⟩, framed, saved, counted, order⟩ := h
  refine ⟨⟨observed, lastGeneration, times⟩, ?_, saved, ?_, ?_⟩
  · obtain ⟨due, lastSave, periodicGeneration, droppedGeneration, savedCount, dropped, apart⟩ := framed
    exact ⟨due, lastSave, periodicGeneration, droppedGeneration, savedCount, dropped, apart⟩
  · show a.savedEventCount + (a.droppedEventCount + 1) + hand.length = l.bundles.length
    rw [← counted, List.length_cons]
    omega
  · exact ((List.Sublist.refl l.savedEvents).append (List.sublist_cons_self bundle hand)).trans order

end Ledger

/-! ### A round keeps the balance -/

section Keeps

variable {α β : Type} {l : Ledger}

/-- Begun with the ledger `l`, the program ends with a result and a ledger as `Q` wants them. -/
def Keeps (l : Ledger) (p : Prog notingCalls α) (Q : α → Ledger → Prop) : Prop :=
  ∀ before, ledger before = l → p.Heeds (fun _ _ => True) (fun a done => Q a (ledger done)) before

theorem keeps_done {a : α} {Q : α → Ledger → Prop} (h : Q a l) :
    Keeps l (.done a : Prog notingCalls α) Q := by
  rintro before rfl
  exact h

theorem keeps_call {o : notingCalls.Op} {k : notingCalls.Answer o → Prog notingCalls α}
    {Q : α → Ledger → Prop} (h : ∀ a, Keeps (l.add ⟨o, a⟩) (k a) Q) :
    Keeps l (.call (I := notingCalls) o k) Q := by
  rintro before rfl
  exact ⟨trivial, fun a => h a _ (ledger_append_singleton before ⟨o, a⟩)⟩

theorem keeps_bind {p : Prog notingCalls α} {f : α → Prog notingCalls β} {R : β → Ledger → Prop}
    (h : Keeps l p fun a l' => Keeps l' (f a) R) : Keeps l (p >>= f) R := by
  intro before hbefore
  refine Prog.heeds_bind ((h before hbefore).mono ?_)
  intro a done hkeeps
  exact hkeeps done rfl

theorem Keeps.mono {p : Prog notingCalls α} {Q Q' : α → Ledger → Prop} (h : Keeps l p Q)
    (hQ : ∀ a l', Q a l' → Q' a l') : Keeps l p Q' := by
  intro before hbefore
  exact (h before hbefore).mono fun a done => hQ a (ledger done)

theorem keeps_ite {c : Prop} [Decidable c] {p q : Prog notingCalls α} {Q : α → Ledger → Prop}
    (hp : c → Keeps l p Q) (hq : ¬ c → Keeps l q Q) : Keeps l (if c then p else q) Q := by
  split_ifs with hc
  · exact hp hc
  · exact hq hc

theorem Keeps.exec {p : Prog notingCalls α} {Q : α → Ledger → Prop} {before trace : Trace notingCalls}
    {r : α} (h : Keeps (ledger before) p Q) (exec : p.Exec trace r) :
    Q r (ledger (before ++ trace)) :=
  (h before rfl).outcome exec

end Keeps

namespace PersistenceWorker

variable {l : Ledger} {w : PersistenceWorker}

theorem applyRuntimeConfiguration_keeps (w : PersistenceWorker) :
    Keeps l w.applyRuntimeConfiguration.plain fun w' l' => l' = l ∧ w'.account = w.account := by
  rw [applyRuntimeConfiguration]
  split_ifs with hstore
  · exact keeps_done ⟨rfl, rfl⟩
  · refine keeps_call fun (configured : Config.Snapshot) => ?_
    beta_reduce
    split_ifs with hsame
    · exact keeps_done ⟨rfl, rfl⟩
    · exact keeps_call fun _ => keeps_call fun _ => keeps_done ⟨rfl, rfl⟩

theorem cleanUp_keeps (w : PersistenceWorker) (now nowUtc : Nanoseconds) :
    Keeps l (w.cleanUp now nowUtc).plain fun cleaned l' =>
      l' = l ∧ ∀ w' ∈ cleaned, w'.account = w.account := by
  rw [cleanUp]
  split_ifs with hcleanup
  · refine keeps_call fun (result : Option CleanupResult) => ?_
    cases result with
    | none => exact keeps_done ⟨rfl, by simp⟩
    | some result =>
      simp only [updateCleanupState]
      split_ifs with hfailed
      · refine keeps_call fun _ => keeps_done ⟨rfl, ?_⟩
        rintro w' ⟨⟩
        rfl
      · refine keeps_done ⟨rfl, ?_⟩
        rintro w' ⟨⟩
        rfl
  · refine keeps_done ⟨rfl, ?_⟩
    rintro w' ⟨⟩
    rfl

theorem account_dropFrame {generation : UInt64} (h : w.droppedGeneration ≠ generation) :
    (w.dropFrame generation).account =
      { w.account with
        droppedGeneration := generation
        droppedFrameCount := w.account.droppedFrameCount + 1 } := by
  rw [dropFrame, if_pos h]
  rfl

/-- The account that holds the last saved frame tells whether the period has elapsed. -/
theorem periodElapsed_eq_elapsed {o : Observation} (h : l.Framed w.account)
    (hperiod : o.period = w.options.periodicPeriod) : w.periodElapsed o.now = l.elapsed o := by
  have hlast : w.lastPeriodicSave = l.savedFrames.getLast?.map (·.now) := h.lastSave
  rw [periodElapsed, Ledger.elapsed, hlast, hperiod]
  cases l.savedFrames.getLast? with
  | none => rfl
  | some last => rfl

theorem savePeriodic_keeps {hand : List EventBundle} {a : Account} {view : ServingView}
    {o : Observation} (h : l.Balanced hand a) (ho : l.Shows a view o) (hdue : l.elapsed o = true)
    (hw : w.account = { a with lastGeneration := o.snapshot.generation }) (nowUtc : Nanoseconds) :
    Keeps (l.watch view o) (w.savePeriodic o.snapshot o.now nowUtc).plain
      fun w' l' => l'.Balanced hand w'.account := by
  have hdropped : w.droppedGeneration ≠ o.snapshot.generation := by
    have hle := UInt64.lt_of_le_of_lt h.framed.droppedGeneration ho.newer
    have hsame : w.droppedGeneration = a.droppedGeneration := congrArg Account.droppedGeneration hw
    rw [hsame]
    exact UInt64.ne_of_lt hle
  have hdrop : (l.watch view o).Balanced hand (w.dropFrame o.snapshot.generation).account := by
    rw [account_dropFrame hdropped, hw]
    exact h.drop ho hdue
  refine keeps_call fun (accepting : Bool) => ?_
  cases accepting with
  | false => exact keeps_call fun _ => keeps_done hdrop
  | true =>
    refine keeps_call fun (saved : Bool) => ?_
    cases saved with
    | false => exact keeps_call fun _ => keeps_done hdrop
    | true =>
      refine keeps_done ?_
      have hsave := h.save ho hdue o.snapshot nowUtc
      have haccount : ({ w with
          lastPeriodicSave := some o.now
          lastPeriodicGeneration := o.snapshot.generation
          droppedGeneration := 0
          stats := { w.stats with savedFrameCount := w.stats.savedFrameCount + 1 } } :
            PersistenceWorker).account = { w.account with
          lastPeriodicSave := some o.now
          lastPeriodicGeneration := o.snapshot.generation
          droppedGeneration := 0
          savedFrameCount := w.account.savedFrameCount + 1 } := rfl
      rw [haccount, hw]
      exact hsave

theorem observeNoting_keeps (w : PersistenceWorker) {hand : List EventBundle} {view : ServingView}
    {now : Nanoseconds} (h : l.Balanced hand w.account)
    (hnow : (l.observed.map (·.now) ++ [now]).Sublist l.times) (nowUtc : Nanoseconds) :
    Keeps (l.add ⟨.inl .servingView, view⟩) (w.observeNoting view now nowUtc)
      fun w' l' => l'.Balanced hand w'.account := by
  rw [observeNoting]
  cases hview : view.snapshot with
  | none => exact keeps_done (h.view (by simp [hview]))
  | some snapshot =>
    simp only
    split_ifs with hnew hdue
    · have ho : l.Shows w.account view ⟨snapshot, now, decide (view.status.availability = .fresh),
          nowUtc, w.options.periodicPeriod⟩ := ⟨hview, hnew.2, hnow⟩
      refine keeps_call fun _ => ?_
      refine savePeriodic_keeps h ho ?_ rfl nowUtc
      exact (periodElapsed_eq_elapsed h.framed rfl).symm.trans hdue.1
    · have ho : l.Shows w.account view ⟨snapshot, now, decide (view.status.availability = .fresh),
          nowUtc, w.options.periodicPeriod⟩ := ⟨hview, hnew.2, hnow⟩
      refine keeps_call fun _ => keeps_done (h.early ho ?_)
      -- a generation that is new has not been saved
      have hunsaved : snapshot.generation ≠ w.lastPeriodicGeneration :=
        (UInt64.ne_of_lt (UInt64.lt_of_le_of_lt h.framed.periodicGeneration hnew.2)).symm
      rw [← periodElapsed_eq_elapsed (w := w) h.framed rfl]
      by_contra helapsed
      exact hdue ⟨(Bool.not_eq_false _).mp helapsed, hunsaved⟩
    · refine keeps_done (h.view ?_)
      intro snapshot' hsnapshot' hlt
      obtain rfl : snapshot = snapshot' := Option.some.inj (hview.symm.trans hsnapshot')
      refine hnew ⟨?_, hlt⟩
      rintro hzero
      rw [hzero] at hlt
      exact absurd hlt UInt64.not_lt_zero

theorem saveCompletedEvents_keeps {bundles : List EventBundle} {a : Account}
    (h : l.Balanced bundles a) (hw : w.account = a) :
    Keeps l (w.saveCompletedEvents bundles).plain fun w' l' => l'.Balanced [] w'.account := by
  subst hw
  induction bundles generalizing w l with
  | nil => exact keeps_done h
  | cons bundle bundles ih =>
    refine keeps_call fun (accepting : Bool) => ?_
    cases accepting with
    | false => exact keeps_call fun _ => ih h.dropEvent
    | true =>
      refine keeps_call fun (saved : Bool) => ?_
      cases saved with
      | false => exact keeps_call fun _ => ih h.dropEvent
      | true => exact ih h.saveEvent

/-- The thread goes on with a worker whose counters fit, or it has counted nothing more. -/
def Fits (w : PersistenceWorker) (r : Option PersistenceWorker) (l : Ledger) : Prop :=
  match r with
  | some w' => l.Balanced [] w'.account
  | none => l.Balanced [] w.account

theorem workNoting_keeps (h : l.Balanced [] w.account) : Keeps l w.workNoting w.Fits := by
  refine keeps_call fun (stop : Bool) => ?_
  cases stop with
  | true => exact keeps_done h
  | false =>
    refine keeps_call fun (now : Nanoseconds) => ?_
    obtain ⟨htime, hnow⟩ := h.time now
    refine keeps_bind (w.applyRuntimeConfiguration_keeps.mono ?_)
    rintro configured _ ⟨rfl, hconfigured⟩
    refine keeps_call fun (nowUtc : Nanoseconds) => ?_
    refine keeps_bind ((configured.cleanUp_keeps now nowUtc).mono ?_)
    rintro cleaned _ ⟨rfl, hcleaned⟩
    cases cleaned with
    | none => exact keeps_done htime
    | some cleaned =>
      have haccount : cleaned.account = w.account := (hcleaned cleaned rfl).trans hconfigured
      rw [← haccount] at htime
      refine keeps_call fun (view : ServingView) => ?_
      refine keeps_bind ((cleaned.observeNoting_keeps htime hnow nowUtc).mono ?_)
      intro observed l' hobserved
      refine keeps_call fun _ => ?_
      refine keeps_bind ((saveCompletedEvents_keeps
        (w := { observed with eventDetector := (observed.eventDetector.advance now).1 })
        (hobserved.advance (observed.eventDetector.advance now).2) rfl).mono ?_)
      intro counted l' hcounted
      exact keeps_call fun (later : Nanoseconds) => keeps_done (hcounted.time later).1

theorem sleeping_keeps (h : l.Balanced [] w.account) (sleepUntil : Nanoseconds) :
    Keeps l (w.sleeping sleepUntil).plain w.Fits := by
  refine keeps_call fun (stop : Bool) => ?_
  cases stop with
  | true => exact keeps_done h
  | false =>
    refine keeps_call fun (now : Nanoseconds) => ?_
    beta_reduce
    split_ifs with hover
    · exact keeps_done (h.time now).1
    · exact keeps_call fun _ => keeps_done (h.time now).1

/-- One round of the thread. -/
theorem bodyNoting_balanced (h : l.Balanced [] w.account) : Keeps l w.bodyNoting w.Fits := by
  rw [bodyNoting]
  cases w.sleepUntil with
  | none => exact workNoting_keeps h
  | some sleepUntil => exact sleeping_keeps h sleepUntil

/-! ### Every run -/

abbrev NotedRun (start : PersistenceWorker) :
    Trace notingCalls → Option PersistenceWorker → Prop :=
  Prog.Loops bodyNoting (fun _ _ => True) start

/-- The runs of the worker are its runs with notes, without the notes. -/
theorem run_iff_noted {start : PersistenceWorker} {trace : Trace workerCalls}
    {r : Option PersistenceWorker} :
    Run start trace r ↔ ∃ noted, NotedRun start noted r ∧ Trace.erase noted = trace := by
  rw [← Prog.loops_erase, funext bodyNoting_erase]

/-- The worker as a run leaves it: it goes on with it, or it has ended in a round begun with it. -/
inductive Leaves (start : PersistenceWorker) : Trace notingCalls → PersistenceWorker → Prop
  | running {noted : Trace notingCalls} {w : PersistenceWorker} (h : NotedRun start noted (some w)) :
      Leaves start noted w
  | ended {noted last : Trace notingCalls} {w : PersistenceWorker}
      (h : NotedRun start noted (some w)) (exec : w.bodyNoting.Exec last none) :
      Leaves start (noted ++ last) w

theorem entering_balanced (options : PersistenceOptions) (now : Nanoseconds) :
    (ledger []).Balanced [] (entering options now).account := by
  refine ⟨⟨rfl, rfl, .slnil⟩, ⟨.slnil, rfl, ?_, ?_, rfl, rfl, fun _ => .nil⟩, ⟨rfl, rfl, .slnil⟩⟩
  · exact UInt64.le_refl _
  · exact UInt64.le_refl _

theorem NotedRun.balanced {options : PersistenceOptions} {now : Nanoseconds}
    {noted : Trace notingCalls} {w : PersistenceWorker}
    (h : NotedRun (entering options now) noted (some w)) : (ledger noted).Balanced [] w.account := by
  refine h.invariant (fun noted r => ∀ w ∈ r, (ledger noted).Balanced [] w.account) ?_ ?_ w rfl
  · rintro w ⟨⟩
    exact entering_balanced options now
  · rintro trace further w r ih exec - w' hw'
    have hfits := (bodyNoting_balanced (ih w rfl)).exec exec
    rw [Option.mem_def.mp hw'] at hfits
    exact hfits

theorem Leaves.balanced {options : PersistenceOptions} {now : Nanoseconds}
    {noted : Trace notingCalls} {w : PersistenceWorker} (h : Leaves (entering options now) noted w) :
    (ledger noted).Balanced [] w.account := by
  cases h with
  | running h => exact h.balanced
  | ended h exec => exact (bodyNoting_balanced h.balanced).exec exec

end PersistenceWorker

/-- What the statistics of the worker tell of what it has done. -/
structure Accounts (l : Ledger) (stats : PersistenceStats) : Prop where
  observed : l.observed.map (·.snapshot) = news l.views
  increasing : (l.observed.map (·.snapshot.generation)).Pairwise (· < ·)
  once : InOrder l.views → ∀ view ∈ l.views, ∀ snapshot ∈ view.snapshot, snapshot.generation ≠ 0 →
    (l.observed.map (·.snapshot.generation)).count snapshot.generation = 1
  due : (l.due.map (·.observation)).Sublist l.observed
  savedFrames : stats.savedFrameCount = l.due.countP (·.saved)
  droppedFrames : stats.droppedFrameCount = l.due.countP (!·.saved)
  apart : l.Steady → l.savedFrames.Pairwise Apart
  savedEvents : stats.savedEventCount = l.savedEvents.length
  bundles : stats.savedEventCount + stats.droppedEventCount = l.bundles.length
  events : l.savedEvents.Sublist l.bundles

/-- In every run a frame is observed once if it is news, every frame that was due is counted once,
and so is every bundle. -/
theorem persistence_accounting {options : PersistenceOptions} {now : Nanoseconds}
    {noted : Trace notingCalls} {w : PersistenceWorker}
    (h : PersistenceWorker.Leaves (.entering options now) noted w) :
    Accounts (ledger noted) w.stats := by
  obtain ⟨watched, framed, bundled⟩ := h.balanced
  have hgenerations : (ledger noted).observed.map (·.snapshot.generation) =
      (news (ledger noted).views).map (·.generation) := by
    rw [← watched.observed, List.map_map]
    rfl
  refine ⟨watched.observed, ?_, ?_, framed.due, framed.saved, framed.dropped, framed.apart,
    bundled.saved, bundled.counted, ?_⟩
  · rw [hgenerations]
    exact List.pairwise_map.mpr (pairwise_news _)
  · intro horder view hview snapshot hsnapshot hzero
    rw [hgenerations]
    exact count_news horder hview hsnapshot hzero
  · have horder := bundled.order
    rwa [List.append_nil] at horder

/-! ### Two views -/

def viewOf (generation : UInt64) : ServingView where
  snapshot := some ⟨generation, 0, 0, 0,
    parsePd1000Registers (Vector.replicate kPd1000RegisterCount 0)⟩
  status := {}

/-- Everything works, a second passes from call to call, and there are two views to be served. -/
def twoViews (first second : UInt64) : Env notingCalls ℕ where
  answer
    | n, .inl .stopRequested => (false, n + 1)
    | n, .inl .steadyNow => (seconds n, n + 1)
    | n, .inl .systemNow => (seconds n, n + 1)
    | n, .inl .configured => (({ version := 0, values := {} } : Config.Snapshot), n + 1)
    | n, .inl .servingView => (viewOf (if n < 10 then first else second), n + 1)
    | n, .inl (.runCleaner _) => (some {}, n + 1)
    | n, .inl (.updateCleaner _) => ((), n + 1)
    | n, .inl .acceptingWrites => (true, n + 1)
    | n, .inl (.saveFrame _ _) => (true, n + 1)
    | n, .inl (.saveEvent _) => (true, n + 1)
    | n, .inl (.log _) => ((), n + 1)
    | n, .inl (.sleep _) => ((), n + 1)
    | n, .inr _ => ((), n + 1)

/-- A round of work, one of sleep, and another one of work. -/
def threeRounds (first second : UInt64) : Trace notingCalls × Option PersistenceWorker × ℕ :=
  Prog.loopIn (twoViews first second) PersistenceWorker.bodyNoting (.entering {} 0) 0 3

theorem threeRounds_run (first second : UInt64) :
    PersistenceWorker.NotedRun (.entering {} 0) (threeRounds first second).1
      (threeRounds first second).2.1 :=
  Prog.loops_loopIn _ _ _ _ _

theorem persistence_accounting_threeRounds : ∃ w, (threeRounds 3 5).2.1 = some w ∧
    w.stats.savedFrameCount = 1 ∧ Accounts (ledger (threeRounds 3 5).1) w.stats := by
  have hstats : (threeRounds 3 5).2.1.map (·.stats.savedFrameCount) = some 1 := by decide +kernel
  obtain ⟨w, hw, hsaved⟩ := Option.map_eq_some_iff.mp hstats
  have hrun := threeRounds_run 3 5
  rw [hw] at hrun
  exact ⟨w, hw, hsaved, persistence_accounting (.running hrun)⟩

/-- A generation that is served after a later one is not observed. -/
theorem receding_view_unobserved : ¬ ∀ options now noted w,
    PersistenceWorker.NotedRun (.entering options now) noted (some w) →
      ∀ view ∈ (ledger noted).views, ∀ snapshot ∈ view.snapshot, snapshot.generation ≠ 0 →
        ((ledger noted).observed.map (·.snapshot.generation)).count snapshot.generation = 1 := by
  intro h
  obtain ⟨w, hw⟩ : ∃ w, (threeRounds 5 3).2.1 = some w :=
    Option.isSome_iff_exists.mp (by decide +kernel)
  have hrun := threeRounds_run 5 3
  rw [hw] at hrun
  have hviews : (ledger (threeRounds 5 3).1).views = [viewOf 5, viewOf 3] := rfl
  have hobserved : (ledger (threeRounds 5 3).1).observed.map (·.snapshot.generation) = [5] := by
    decide +kernel
  have hcount := h _ _ _ w hrun (viewOf 3) (by simp [hviews]) _ rfl (by decide +kernel)
  rw [hobserved] at hcount
  exact absurd hcount (by decide +kernel)

end Uhf.Storage
