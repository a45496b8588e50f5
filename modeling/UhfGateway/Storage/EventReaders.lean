/-
Readers of the event directory while an event is saved.

The worker saves a bundle while any number of web handlers, each of them anywhere in
its program, look at the directory; no operation fails on its own account.

* `save_survives` — if no reader removes the temporary file between its opening and the
  rename, the save succeeds as it would alone, and the bundle is on the disk;
* `save_lost_to_reader` — a reader that does so makes the save fail.
-/
import UhfGateway.Effects.Interleave
import UhfGateway.Storage.EventStore

namespace Uhf.Storage

open Domain Acquisition Effects

/-! ### The directory -/

/-- The entries with their files, and the data of the files, which an open descriptor
reaches even when the entry is gone.  `unfinished` is the temporary name that a save
has opened and not yet renamed; no operation looks at it. -/
structure Directory where
  entries : List Bytes := []
  file : Bytes → ℕ := fun _ => 0
  data : ℕ → Bytes := fun _ => []
  next : ℕ := 0
  unfinished : Option Bytes := none

namespace Directory

/-- The content of an entry. -/
def content (d : Directory) (name : Bytes) : Option Bytes :=
  if name ∈ d.entries then some (d.data (d.file name)) else none

def removed (d : Directory) (name : Bytes) : Directory :=
  { d with entries := d.entries.filter (· ≠ name) }

/-- The file that `open` truncates or creates. -/
def openedFile (d : Directory) (name : Bytes) : ℕ :=
  if name ∈ d.entries then d.file name else d.next

def opened (d : Directory) (name : Bytes) : Directory :=
  { entries := if name ∈ d.entries then d.entries else d.entries ++ [name]
    file := Function.update d.file name (d.openedFile name)
    data := Function.update d.data (d.openedFile name) []
    next := if name ∈ d.entries then d.next else d.next + 1
    unfinished := some name }

def written (d : Directory) (descriptor : ℕ) (bytes : Bytes) : Directory :=
  { d with data := Function.update d.data descriptor (d.data descriptor ++ bytes) }

def renamed (d : Directory) (source target : Bytes) : Directory :=
  { d with
    entries := (d.entries.filter fun name => name ≠ source ∧ name ≠ target) ++ [target]
    file := Function.update d.file target (d.file source)
    unfinished := none }

end Directory

/-- What the operations do when none of them fails on its own account.  A directory is
listed in any order, and a write may be cut short. -/
def directoryAnswers : (call : FileCall) → Directory → fileCalls.Answer call → Directory → Prop
  | .listDirectory, d, entries, d' => (∃ l, entries = some l ∧ l.Perm d.entries) ∧ d' = d
  | .remove name, d, answer, d' => answer = some (decide (name ∈ d.entries)) ∧ d' = d.removed name
  | .fileSize name, d, answer, d' => answer = (d.content name).map List.length ∧ d' = d
  | .readFile name, d, answer, d' => answer = d.content name ∧ d' = d
  | .openTruncated name, d, answer, d' => answer = some (d.openedFile name) ∧ d' = d.opened name
  | .write descriptor bytes, d, answer, d' =>
      ∃ n, 0 < n ∧ n ≤ bytes.length ∧ answer = some n ∧ d' = d.written descriptor (bytes.take n)
  | .rename source target, d, ok, d' =>
      ok = decide (source ∈ d.entries) ∧
        d' = if source ∈ d.entries then d.renamed source target else d
  | .openDirectory, d, answer, d' => answer = some d.next ∧ d' = d
  | .unlink name, d, ok, d' =>
      ok = decide (name ∈ d.entries) ∧ d' = { d.removed name with unfinished := none }
  | .createDirectories, d, ok, d' | .isDirectory, d, ok, d' | .chmodDirectory, d, ok, d'
  | .fchmod _, d, ok, d' | .fsync _, d, ok, d' | .close _, d, ok, d' => ok = true ∧ d' = d

def directoryWorld : World fileCalls Directory where
  answers := directoryAnswers
  cut _ _ _ := False
  dies _ := False

/-! ### What readers leave alone -/

/-- What a considerate reader may do to the directory: remove temporary entries other
than the unfinished one. -/
structure Tidied (d d' : Directory) : Prop where
  file : d'.file = d.file
  data : d'.data = d.data
  unfinished : d'.unfinished = d.unfinished
  entries : ∀ name, extension name ≠ kTemporary ∨ d.unfinished = some name →
    (name ∈ d'.entries ↔ name ∈ d.entries)

theorem Tidied.refl (d : Directory) : Tidied d d := ⟨rfl, rfl, rfl, fun _ _ => Iff.rfl⟩

/-- The state of an interleaving; the worker is `none`, the readers are numbered. -/
abbrev Users := Parties fileCalls (Option ℕ) (Option Bytes) Directory

/-- Every order of the operations. -/
def AnyMove (_ : Users) (_ : Option ℕ) (_ : Act fileCalls) : Prop := True

/-- A reader does not remove the temporary file of a save under way. -/
def Considerate (x : Users) (party : Option ℕ) (act : Act fileCalls) : Prop :=
  ∀ reader name, party = some reader → act = ⟨.remove name, some true⟩ →
    x.shared.unfinished ≠ some name

theorem Considerate.tidied {x y : Users} {party : Option ℕ} {act : Act fileCalls}
    (h : Considerate x party act) (hreader : party ≠ none)
    (hmove : Move directoryWorld x party act y) (hreads : Reads act.op) : Tidied x.shared y.shared := by
  obtain ⟨reader, rfl⟩ := Option.ne_none_iff_exists'.mp hreader
  obtain @⟨o, k, a, d, _, answers⟩ := hmove
  show Tidied x.shared d
  cases o with
  | createDirectories => exact answers.2 ▸ .refl _
  | isDirectory => exact answers.2 ▸ .refl _
  | chmodDirectory => exact answers.2 ▸ .refl _
  | listDirectory => exact answers.2 ▸ .refl _
  | fileSize name => exact answers.2 ▸ .refl _
  | readFile name => exact answers.2 ▸ .refl _
  | remove name =>
    obtain ⟨hanswer, rfl⟩ := answers
    refine ⟨rfl, rfl, rfl, fun other hother => ?_⟩
    show other ∈ x.shared.entries.filter (· ≠ name) ↔ _
    rw [List.mem_filter, decide_eq_true_iff]
    refine ⟨fun hmem => hmem.1, fun hmem => ⟨hmem, fun heq => ?_⟩⟩
    -- the removed entry is a temporary one, and not the unfinished one
    subst heq
    have htrue : a = some true := by rw [hanswer, decide_eq_true hmem]
    have hnot := h reader other rfl (by rw [htrue])
    exact hother.elim (fun hext => hext hreads) hnot
  | openTruncated name => exact hreads.elim
  | write descriptor bytes => exact hreads.elim
  | fchmod descriptor => exact hreads.elim
  | fsync descriptor => exact hreads.elim
  | close descriptor => exact hreads.elim
  | rename source target => exact hreads.elim
  | openDirectory => exact hreads.elim
  | unlink name => exact hreads.elim

/-! ### The worker among considerate readers -/

/-- The temporary file is there, unfinished, with the given data. -/
structure Pending (temporary : Bytes) (descriptor : ℕ) (bytes : Bytes) (d : Directory) : Prop where
  entry : temporary ∈ d.entries
  file : d.file temporary = descriptor
  data : d.data descriptor = bytes
  unfinished : d.unfinished = some temporary

theorem Pending.tidied {temporary bytes : Bytes} {descriptor : ℕ} (d d' : Directory)
    (h : Pending temporary descriptor bytes d) (hR : Tidied d d') :
    Pending temporary descriptor bytes d' where
  entry := (hR.entries temporary (.inr h.unfinished)).mpr h.entry
  file := by rw [hR.file, h.file]
  data := by rw [hR.data, h.data]
  unfinished := by rw [hR.unfinished, h.unfinished]

theorem content_tidied {name bytes : Bytes} (hname : extension name ≠ kTemporary)
    (d d' : Directory) (h : d.content name = some bytes) (hR : Tidied d d') :
    d'.content name = some bytes := by
  rw [Directory.content, hR.file, hR.data] at *
  by_cases hmem : name ∈ d.entries
  · rw [if_pos hmem] at h
    rw [if_pos ((hR.entries name (.inl hname)).mpr hmem), h]
  · rw [if_neg hmem] at h
    cases h

/-- The loop writes everything, whatever fact `P` about what has been written so far
survives the others and the next chunk. -/
theorem writeLoop_withstands {R : Directory → Directory → Prop} {P : Bytes → Directory → Prop}
    {descriptor : ℕ} (stable : ∀ done d d', P done d → R d d' → P done d')
    (chunk : ∀ done next d, P done d → P (done ++ next) (d.written descriptor next))
    (done bytes : Bytes) {d : Directory} (h : P done d) :
    (writeLoop descriptor bytes).Withstands directoryWorld R
      (fun complete d => complete = true ∧ P (done ++ bytes) d) d := by
  induction hlen : bytes.length using Nat.strongRecOn generalizing bytes done d with
  | ind length ih =>
    rw [writeLoop]
    by_cases hbytes : bytes = []
    · rw [dif_pos hbytes, hbytes, List.append_nil]
      exact Prog.withstands_done ⟨rfl, h⟩ fun d d' hd hR => ⟨rfl, stable done d d' hd.2 hR⟩
    · rw [dif_neg hbytes]
      refine Prog.withstands_call h (stable done) fun d a d' hd answers => ?_
      obtain ⟨n, hpos, hle, rfl, rfl⟩ := answers
      show (dite (n = 0) _ _ : Prog fileCalls Bool).Withstands _ _ _ _
      rw [dif_neg (by omega)]
      have hrest := ih (bytes.drop n).length (by rw [List.length_drop]; omega)
        _ (bytes.drop n) (chunk done (bytes.take n) d hd) rfl
      rw [List.append_assoc, List.take_append_drop] at hrest
      exact hrest

theorem Pending.written {temporary done : Bytes} {descriptor : ℕ} (next : Bytes) (d : Directory)
    (h : Pending temporary descriptor done d) :
    Pending temporary descriptor (done ++ next) (d.written descriptor next) := by
  refine ⟨h.entry, h.file, ?_, h.unfinished⟩
  show Function.update d.data descriptor _ descriptor = _
  rw [Function.update_self, h.data]

theorem opened_pending (d : Directory) (name : Bytes) :
    Pending name (d.openedFile name) [] (d.opened name) where
  entry := by
    show name ∈ (if name ∈ d.entries then d.entries else d.entries ++ [name])
    split
    · assumption
    · exact List.mem_append_right _ (List.mem_singleton_self name)
  file := Function.update_self ..
  data := Function.update_self ..
  unfinished := rfl

theorem renamed_content {temporary name bytes : Bytes} {descriptor : ℕ} {d : Directory}
    (h : Pending temporary descriptor bytes d) :
    (d.renamed temporary name).content name = some bytes := by
  have hmem : name ∈ (d.renamed temporary name).entries :=
    List.mem_append_right _ (List.mem_singleton_self name)
  rw [Directory.content, if_pos hmem]
  show some (d.data (Function.update d.file name (d.file temporary) name)) = some bytes
  rw [Function.update_self, h.file, h.data]

/-- Among considerate readers, the content arrives under its name. -/
theorem writeAtomic_withstands {name : Bytes} (hname : extension name ≠ kTemporary) (bytes : Bytes)
    (d : Directory) :
    (writeAtomic name bytes).Withstands directoryWorld Tidied
      (fun complete d => complete = true ∧ d.content name = some bytes) d := by
  have hkeeps : ∀ d d', d.content name = some bytes → Tidied d d' →
      d'.content name = some bytes := content_tidied hname
  refine Prog.withstands_call (P := fun _ => True) trivial (fun _ _ _ _ => trivial)
    fun d opened d₁ _ answers => ?_
  obtain ⟨rfl, rfl⟩ := answers
  have hloop := writeLoop_withstands (P := Pending (name ++ kTemporary) (d.openedFile _))
    (fun _ => Pending.tidied) (fun _ => Pending.written) [] bytes (opened_pending d _)
  refine Prog.withstands_bind (hloop.mono ?_)
  rintro complete d₁ ⟨rfl, hwritten⟩
  -- mode, sync and close leave the pending file as it is
  refine Prog.withstands_call hwritten Pending.tidied fun d₂ moded d₃ hmoded answers => ?_
  obtain ⟨rfl, rfl⟩ := answers
  refine Prog.withstands_call hmoded Pending.tidied fun d₃ synced d₄ hsynced answers => ?_
  obtain ⟨rfl, rfl⟩ := answers
  refine Prog.withstands_call hsynced Pending.tidied fun d₄ closed d₅ hclosed answers => ?_
  obtain ⟨rfl, rfl⟩ := answers
  refine Prog.withstands_call hclosed Pending.tidied fun d₅ renamed d₆ hpending answers => ?_
  obtain ⟨hrenamed, hd₆⟩ := answers
  rw [decide_eq_true hpending.entry] at hrenamed
  rw [if_pos hpending.entry] at hd₆
  subst hrenamed hd₆
  -- from the rename on the entry is none a reader would touch
  refine Prog.withstands_call (renamed_content hpending) hkeeps
    fun d₆ directory d₇ hd₆ answers => ?_
  obtain ⟨rfl, rfl⟩ := answers
  refine Prog.withstands_call hd₆ hkeeps fun d₇ synced d₈ hd₇ answers => ?_
  obtain ⟨rfl, rfl⟩ := answers
  refine Prog.withstands_call hd₇ hkeeps fun d₈ closed d₉ hd₈ answers => ?_
  obtain ⟨rfl, rfl⟩ := answers
  exact Prog.withstands_done ⟨rfl, hd₈⟩ fun d d' hd hR => ⟨rfl, hkeeps d d' hd.2 hR⟩

/-! ### Names -/

theorem extension_append {stem suffix : Bytes} (hstem : stem ≠ []) (hsuffix : suffix ≠ [])
    (hdot : (0x2E : UInt8) ∉ suffix) :
    extension (stem ++ 0x2E :: suffix) = 0x2E :: suffix := by
  have hother : ∀ byte ∈ suffix.reverse, decide (byte ≠ 0x2E) = true := by
    intro byte hmem
    refine decide_eq_true fun heq => hdot ?_
    rw [← heq]
    exact List.mem_reverse.mp hmem
  have hrev : (stem ++ 0x2E :: suffix).reverse.takeWhile (· ≠ 0x2E) = suffix.reverse := by
    rw [List.reverse_append, List.reverse_cons, List.append_assoc,
      List.takeWhile_append_of_pos hother, List.singleton_append,
      List.takeWhile_cons_of_neg (by decide), List.append_nil]
  have hpos := List.length_pos_iff.mpr hstem
  simp only [extension, hrev, List.reverse_reverse]
  rw [if_neg]
  rw [not_or]
  constructor
  · rw [List.length_append, List.length_cons, List.length_reverse]
    omega
  · -- the name is longer than two dots
    intro heq
    have hsuffix := List.length_pos_iff.mpr hsuffix
    have hlength := congrArg List.length heq
    rw [List.length_append, List.length_cons, show (ascii "..").length = 2 from rfl] at hlength
    omega

theorem extension_temporary {name : Bytes} (h : name ≠ []) :
    extension (name ++ kTemporary) = kTemporary := by
  have htmp : kTemporary = 0x2E :: ascii "tmp" := by decide
  rw [htmp]
  exact extension_append h (by decide) (by decide)

theorem eventName_ne_nil (milliseconds : UInt64) (bundle : EventBundle) :
    eventName milliseconds bundle ≠ [] := by
  intro h
  have hbin : ascii ".bin" = [] := (List.append_eq_nil_iff.mp h).2
  exact absurd hbin (by decide)

theorem extension_eventName (milliseconds : UInt64) (bundle : EventBundle) :
    extension (eventName milliseconds bundle) = ascii ".bin" := by
  have hbin : ascii ".bin" = 0x2E :: ascii "bin" := by decide
  rw [eventName, hbin]
  refine extension_append ?_ (by decide) (by decide)
  rw [List.append_assoc, List.append_assoc]
  exact List.cons_ne_nil _ _

theorem save_withstands {bundle : EventBundle} {milliseconds : UInt64} {bytes : Bytes}
    (h : encodeBundle bundle = some (milliseconds, bytes)) (d : Directory) :
    (save bundle).Withstands directoryWorld Tidied
      (fun result d => result = some (eventName milliseconds bundle) ∧
        d.content (eventName milliseconds bundle) = some bytes) d := by
  have hname : extension (eventName milliseconds bundle) ≠ kTemporary := by
    rw [extension_eventName]
    decide
  rw [save, h]
  refine Prog.withstands_bind ((writeAtomic_withstands hname bytes d).mono ?_)
  rintro complete d' ⟨rfl, hcontent⟩
  exact Prog.withstands_done ⟨rfl, hcontent⟩
    fun d d' hd hR => ⟨rfl, content_tidied hname d d' hd.2 hR⟩

/-! ### The worker alone -/

/-- The operations of the worker. -/
def Works : FileCall → Prop
  | .write _ bytes => bytes ≠ []
  | .openTruncated _ | .fchmod _ | .fsync _ | .close _ => True
  | .rename _ _ | .openDirectory | .unlink _ => True
  | _ => False

theorem works_answered {call : FileCall} (h : Works call) (d : Directory) :
    ∃ a d', directoryWorld.answers call d a d' := by
  cases call with
  | write descriptor bytes =>
    have hpos := List.length_pos_iff.mpr h
    exact ⟨some bytes.length, _, bytes.length, hpos, Nat.le_refl _, rfl, rfl⟩
  | openTruncated name => exact ⟨_, _, rfl, rfl⟩
  | fchmod descriptor => exact ⟨_, _, rfl, rfl⟩
  | fsync descriptor => exact ⟨_, _, rfl, rfl⟩
  | close descriptor => exact ⟨_, _, rfl, rfl⟩
  | rename source target => exact ⟨_, _, rfl, rfl⟩
  | openDirectory => exact ⟨_, _, rfl, rfl⟩
  | unlink name => exact ⟨_, _, rfl, rfl⟩
  | createDirectories => exact h.elim
  | isDirectory => exact h.elim
  | chmodDirectory => exact h.elim
  | listDirectory => exact h.elim
  | remove name => exact h.elim
  | fileSize name => exact h.elim
  | readFile name => exact h.elim

theorem writeLoop_works (descriptor : ℕ) (bytes : Bytes) :
    (writeLoop descriptor bytes).Only Works := by
  induction hlen : bytes.length using Nat.strongRecOn generalizing bytes with
  | ind length ih =>
    rw [writeLoop]
    by_cases hbytes : bytes = []
    · rw [dif_pos hbytes]
      trivial
    · rw [dif_neg hbytes]
      refine ⟨hbytes, fun (result : Option ℕ) => ?_⟩
      cases result with
      | none => trivial
      | some written =>
        show (dite (written = 0) _ _ : Prog fileCalls Bool).Only Works
        have hpos := List.length_pos_iff.mpr hbytes
        split
        · trivial
        · exact ih _ (by rw [List.length_drop]; omega) _ rfl

theorem finishWrite_works (name bytes : Bytes) (descriptor : ℕ) :
    (finishWrite name bytes descriptor).Only Works := by
  have hdiscard : ∀ name, (discard name).Only Works := fun _ => ⟨trivial, fun _ => trivial⟩
  refine Prog.only_bind (writeLoop_works descriptor bytes) fun complete => ?_
  cases complete with
  | false => exact ⟨trivial, fun _ => hdiscard _⟩
  | true =>
    refine ⟨trivial, fun (moded : Bool) => ?_⟩
    cases moded with
    | false => exact ⟨trivial, fun _ => hdiscard _⟩
    | true =>
      refine ⟨trivial, fun (synced : Bool) => ?_⟩
      cases synced with
      | false => exact ⟨trivial, fun _ => hdiscard _⟩
      | true =>
        refine ⟨trivial, fun (closed : Bool) => ?_⟩
        cases closed with
        | false => exact hdiscard _
        | true =>
          refine ⟨trivial, fun (renamed : Bool) => ?_⟩
          cases renamed with
          | false => exact hdiscard _
          | true =>
            refine ⟨trivial, fun (directory : Option ℕ) => ?_⟩
            cases directory with
            | none => trivial
            | some directory => exact ⟨trivial, fun _ => ⟨trivial, fun _ => trivial⟩⟩

theorem writeAtomic_works (name bytes : Bytes) : (writeAtomic name bytes).Only Works := by
  refine ⟨trivial, fun (opened : Option ℕ) => ?_⟩
  cases opened with
  | none => trivial
  | some descriptor => exact finishWrite_works name bytes descriptor

theorem save_works (bundle : EventBundle) : (save bundle).Only Works := by
  rw [save]
  split
  · trivial
  · exact Prog.only_bind (writeAtomic_works _ _) fun _ => trivial

/-- Alone, a bundle that has a file is saved. -/
theorem save_alone {bundle : EventBundle} {milliseconds : UInt64} {bytes : Bytes}
    (h : encodeBundle bundle = some (milliseconds, bytes)) (d : Directory) :
    ∃ d', (save bundle).Runs directoryWorld d (some (some (eventName milliseconds bundle))) d' := by
  obtain ⟨result, d', hrun⟩ := (save_works bundle).exists_runs (fun _ => works_answered) d
  obtain ⟨rfl, -⟩ := (save_withstands h d).sound hrun
  exact ⟨d', hrun⟩

/-! ### Saving among readers -/

/-- The worker about to save a bundle, and the readers. -/
def users (bundle : EventBundle) (readers : ℕ → Prog fileCalls (Option Bytes)) (d : Directory) :
    Users where
  shared := d
  left party := party.elim (save bundle) readers

/-- Readers anywhere in their handlers, none of whom removes the temporary file between
its opening and the rename: a save that would succeed alone goes on to its end and
succeeds, and its bundle is on the disk from then on. -/
theorem save_survives {bundle : EventBundle} {name : Bytes} {d d' : Directory}
    {readers : ℕ → Prog fileCalls (Option Bytes)}
    (hreaders : ∀ n, eventsJson.Remainder (readers n) ∨ latestEventCsv.Remainder (readers n))
    (halone : (save bundle).Runs directoryWorld d (some (some name)) d') {x : Users}
    (hrun : Interleaved directoryWorld Considerate (users bundle readers d) x) :
    ((∃ result, x.left none = .done result) ∨ ∃ act y, Move directoryWorld x none act y) ∧
      ∀ result, x.left none = .done result → result = some name ∧
        ∃ milliseconds bytes, encodeBundle bundle = some (milliseconds, bytes) ∧
          x.shared.content name = some bytes := by
  constructor
  · have hworks : (x.left none).Only Works := hrun.only (save_works bundle)
    cases hleft : x.left none with
    | done result => exact .inl ⟨result, rfl⟩
    | call o k =>
      rw [hleft] at hworks
      obtain ⟨a, s, ha⟩ := works_answered hworks.1 x.shared
      exact .inr ⟨⟨o, a⟩, _, .move hleft ha⟩
  · intro result hresult
    cases hencoded : encodeBundle bundle with
    | none =>
      -- a bundle without a file is not saved alone either
      rw [save, hencoded] at halone
      cases halone
    | some encoded =>
      obtain ⟨milliseconds, bytes⟩ := encoded
      have hname : name = eventName milliseconds bundle :=
        Option.some.inj ((save_withstands hencoded d).sound halone).1
      have hothers : ∀ party, party ≠ none →
          ((users bundle readers d).left party).Only Reads := by
        intro party hparty
        obtain ⟨n, rfl⟩ := Option.ne_none_iff_exists'.mp hparty
        exact (hreaders n).elim eventsJson_onlyReads.remainder latestEventCsv_onlyReads.remainder
      have hwithstands := hrun.withstands hothers
        (fun x party act y hparty hmove hallowed hreads =>
          hallowed.tidied hparty hmove hreads) (save_withstands hencoded d)
      rw [hresult] at hwithstands
      obtain ⟨hsaved, hcontent⟩ := hwithstands.result
      rw [hname]
      exact ⟨hsaved, milliseconds, bytes, rfl, hcontent⟩

/-- A bundle of one frame. -/
def sampleBundle : EventBundle where
  id := 1
  reasonMask := kStrongReason
  strong := ⟨1, -40, 0⟩
  frames := [{ generation := 1, startedAt := 0, completedAt := 0, pollDuration := 0
               payload := parsePd1000Registers (Vector.replicate kPd1000RegisterCount 0) }]

theorem sampleBundle_encoded : ∃ bytes, encodeBundle sampleBundle = some (0, bytes) := by
  have htime : timestampMilliseconds sampleBundle.firstTriggeredAtUtc = some 0 := by decide
  have hvalid : bundleIsValid sampleBundle = true := by
    rw [bundleIsValid]
    decide
  exact encodeBundle_isSome htime hvalid rfl

/-- The worker runs to its end before any reader starts. -/
theorem worker_first {bundle : EventBundle} (readers : ℕ → Prog fileCalls (Option Bytes))
    {name : Bytes} {d d' : Directory}
    (halone : (save bundle).Runs directoryWorld d (some (some name)) d') :
    ∃ x, Interleaved directoryWorld Considerate (users bundle readers d) x ∧
      x.left none = .done (some name) := by
  have hnext : (users bundle readers d).left none = save bundle >>= .done :=
    (Prog.bind_done (save bundle)).symm
  have hworker : ∀ x act, Considerate x none act := fun _ _ _ _ hparty => by cases hparty
  obtain ⟨x, hrun, -, hleft, -⟩ := Interleaved.perform hworker hnext halone
  exact ⟨x, hrun, hleft⟩

theorem save_survives_undisturbed : ∃ name x,
    Interleaved directoryWorld Considerate (users sampleBundle (fun _ => eventsJson) {}) x ∧
      x.left none = .done (some name) ∧ (x.shared.content name).isSome := by
  obtain ⟨bytes, hbytes⟩ := sampleBundle_encoded
  obtain ⟨d', halone⟩ := save_alone hbytes {}
  obtain ⟨x, hrun, hleft⟩ := worker_first (fun _ => eventsJson) halone
  obtain ⟨-, hresult⟩ := save_survives (fun _ => .inl .whole) halone hrun
  obtain ⟨-, milliseconds, bytes, -, hcontent⟩ := hresult _ hleft
  exact ⟨_, x, hrun, hleft, by rw [hcontent, Option.isSome_some]⟩

/-! ### A lost event -/

/-- Once the temporary entry is gone, the rename fails. -/
theorem finishWrite_lost {name : Bytes} (bytes : Bytes) (descriptor : ℕ) {d : Directory}
    (htemporary : name ++ kTemporary ∉ d.entries) (hname : name ∉ d.entries) :
    (finishWrite name bytes descriptor).Withstands directoryWorld (fun _ _ => False)
      (fun complete d => complete = false ∧ name ∉ d.entries) d := by
  let P : Directory → Prop := fun d => name ++ kTemporary ∉ d.entries ∧ name ∉ d.entries
  have hstable : ∀ d d', P d → False → P d' := fun _ _ _ hR => hR.elim
  have hloop : (writeLoop descriptor bytes).Withstands directoryWorld (fun _ _ => False)
      (fun complete d => complete = true ∧ P d) d :=
    writeLoop_withstands (P := fun _ => P) (fun _ => hstable) (fun _ _ _ h => h) [] bytes
      ⟨htemporary, hname⟩
  refine Prog.withstands_bind (hloop.mono ?_)
  rintro complete d₁ ⟨rfl, hwritten⟩
  refine Prog.withstands_call hwritten hstable fun d₂ moded d₃ hmoded answers => ?_
  obtain ⟨rfl, rfl⟩ := answers
  refine Prog.withstands_call hmoded hstable fun d₃ synced d₄ hsynced answers => ?_
  obtain ⟨rfl, rfl⟩ := answers
  refine Prog.withstands_call hsynced hstable fun d₄ closed d₅ hclosed answers => ?_
  obtain ⟨rfl, rfl⟩ := answers
  refine Prog.withstands_call hclosed hstable fun d₅ renamed d₆ hgone answers => ?_
  obtain ⟨hrenamed, hd₆⟩ := answers
  rw [decide_eq_false hgone.1] at hrenamed
  rw [if_neg hgone.1] at hd₆
  subst hrenamed hd₆
  -- and there is nothing to unlink either
  refine Prog.withstands_call hgone hstable fun d₆ unlinked d₇ hd₆ answers => ?_
  obtain ⟨-, rfl⟩ := answers
  refine Prog.withstands_done ⟨rfl, fun hmem => hd₆.2 ?_⟩ fun _ _ _ hR => hR.elim
  exact (List.mem_filter.mp hmem).1

/-- A handler that prepares the store while a save is under way. -/
theorem prepareStore_removes (temporary : Bytes) (hextension : extension temporary = kTemporary)
    {d : Directory} (hentries : d.entries = [temporary]) :
    prepareStore.Runs directoryWorld d (some true) (d.removed temporary) := by
  have hremove : (removeIncomplete [temporary]).Runs directoryWorld d (some true)
      (d.removed temporary) := by
    rw [removeIncomplete, if_neg (not_not.mpr hextension)]
    have htrue : directoryWorld.answers (.remove temporary) d (some true) (d.removed temporary) :=
      ⟨by rw [hentries, decide_eq_true (List.mem_singleton_self _)], rfl⟩
    exact .call htrue (.done true _)
  have hlisted : directoryWorld.answers .listDirectory d (some [temporary]) d :=
    ⟨⟨_, rfl, by rw [hentries]⟩, rfl⟩
  have hcreated : directoryWorld.answers .createDirectories d true d := ⟨rfl, rfl⟩
  have hdirectory : directoryWorld.answers .isDirectory d true d := ⟨rfl, rfl⟩
  have hmoded : directoryWorld.answers .chmodDirectory d true d := ⟨rfl, rfl⟩
  exact .call hcreated (.call hdirectory (.call hmoded (.call hlisted hremove)))

/-- A reader prepares its store when the worker has just opened its temporary file. -/
theorem finishWrite_overtaken {x : Users} {name bytes : Bytes} {descriptor : ℕ}
    {f : Bool → Prog fileCalls (Option Bytes)} (hname : name ≠ [])
    (hentries : x.shared.entries = [name ++ kTemporary])
    (hworker : x.left none = finishWrite name bytes descriptor >>= f)
    (hreader : x.left (some 0) = eventsJson) :
    ∃ y, Interleaved directoryWorld AnyMove x y ∧
      y.left none = f false ∧ y.shared.content name = none := by
  have hprepared := prepareStore_removes _ (extension_temporary hname) hentries
  have hgone : (x.shared.removed (name ++ kTemporary)).entries = [] := by
    show x.shared.entries.filter _ = []
    rw [hentries, List.filter_cons_of_neg (by simp), List.filter_nil]
  generalize x.shared.removed (name ++ kTemporary) = d at hprepared hgone
  have hmissing : ∀ entry, entry ∉ d.entries := by
    intro entry
    rw [hgone]
    exact List.not_mem_nil
  have hlost := finishWrite_lost bytes descriptor (hmissing (name ++ kTemporary)) (hmissing name)
  obtain ⟨complete, d', hwrite⟩ :=
    (finishWrite_works name bytes descriptor).exists_runs (fun _ => works_answered) d
  obtain ⟨rfl, hnone⟩ := hlost.sound hwrite
  have hany : ∀ {i} x act, AnyMove x i act := fun _ _ => trivial
  -- first the reader, then the worker
  obtain ⟨y, hfirst, rfl, -, hothers⟩ := Interleaved.perform hany hreader hprepared
  obtain ⟨z, hsecond, rfl, hleft, -⟩ :=
    Interleaved.perform hany ((hothers none (by simp)).trans hworker) hwrite
  exact ⟨z, hfirst.trans hsecond, hleft, if_neg hnone⟩

theorem save_overtaken {bundle : EventBundle} {milliseconds : UInt64} {bytes : Bytes}
    (h : encodeBundle bundle = some (milliseconds, bytes)) :
    ∃ x, Interleaved directoryWorld AnyMove (users bundle (fun _ => eventsJson) {}) x ∧
      x.left none = .done none ∧ x.shared.content (eventName milliseconds bundle) = none := by
  have hname := eventName_ne_nil milliseconds bundle
  have hsave : (users bundle (fun _ => eventsJson) {}).left none =
      writeAtomic (eventName milliseconds bundle) bytes >>= fun complete =>
        .done (if complete then some (eventName milliseconds bundle) else none) := by
    show save bundle = _
    rw [save, h]
  generalize eventName milliseconds bundle = name at hname hsave ⊢
  have hopened : directoryWorld.answers (.openTruncated (name ++ kTemporary)) {} (some 0)
      (Directory.opened {} (name ++ kTemporary)) := ⟨rfl, rfl⟩
  obtain ⟨y, hfirst, hshared, hworker, hothers⟩ := Move.of_call hsave hopened
  have hentries : y.shared.entries = [name ++ kTemporary] := by
    rw [hshared]
    rfl
  obtain ⟨z, hrest, hleft, hcontent⟩ :=
    finishWrite_overtaken hname hentries hworker (hothers (some 0) (Option.some_ne_none 0))
  exact ⟨z, (Interleaved.refl.step hfirst trivial).trans hrest, hleft, hcontent⟩

/-- The save succeeds alone.  With one reader that prepares its store between the
opening of the temporary file and the rename, it fails and the bundle is not there. -/
theorem save_lost_to_reader : ∃ name d' x,
    (save sampleBundle).Runs directoryWorld {} (some (some name)) d' ∧
      Interleaved directoryWorld AnyMove (users sampleBundle (fun _ => eventsJson) {}) x ∧
      x.left none = .done none ∧ x.shared.content name = none := by
  obtain ⟨bytes, hbytes⟩ := sampleBundle_encoded
  obtain ⟨d', halone⟩ := save_alone hbytes {}
  obtain ⟨x, hrun, hleft, hcontent⟩ := save_overtaken hbytes
  exact ⟨_, d', x, halone, hrun, hleft, hcontent⟩

end Uhf.Storage
