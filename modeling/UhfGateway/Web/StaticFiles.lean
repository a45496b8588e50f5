/-
The protected pages.

The route compares the path of a request with those of the seven pages letter by letter;
the file is found after its path has been made canonical.

* `pages_protected_iff` — a page is shown to a stranger exactly when its path is spelled in
  another way;
* `settings_shown` — such a request.
-/
import UhfGateway.Posix.Paths
import UhfGateway.Web.Visits

namespace Uhf.Web

open Acquisition Health Network Effects Containers Posix

def protectedNames : List Bytes :=
  [ascii "index.html", ascii "settings.html", ascii "logs.html", ascii "storage.html",
    ascii "network.html", ascii "iec61850.html", ascii "maintenance.html"]

theorem isName_of_mem_protectedNames {name : Bytes} (hname : name ∈ protectedNames) :
    IsName name := by
  have hall : ∀ name ∈ protectedNames, names name = true ∧ slash ∉ name := by decide +kernel
  exact hall name hname

theorem protectedPages_eq : protectedPages = protectedNames.map (slash :: ·) := by decide +kernel

/-- What the calls for files say is true, but each of them may fail. -/
def Truthful (fs : FileSystem) : Act webCalls → Prop
  | ⟨.weaklyCanonical path, (answer : Option Bytes)⟩ =>
    ∀ canonical, answer = some canonical → canonical = fs.weaklyCanonical path
  | ⟨.isRegularFile path, (answer : Bool)⟩ => answer = true → (fs.read path).isSome = true
  | ⟨.fileSize path, (answer : Option ℕ)⟩ =>
    ∀ size, answer = some size → (fs.read path).map List.length = some size
  | ⟨.openFile path, (answer : Bool)⟩ => answer = true → (fs.read path).isSome = true
  | ⟨.readFile path, (answer : Option Bytes)⟩ =>
    ∀ contents, answer = some contents → fs.read path = some contents
  | _ => True

/-- The body of the answer has been read from the file of a protected page. -/
def Shows (root : List Bytes) (trace : Trace webCalls) (outcome : Outcome) : Prop :=
  ∃ name ∈ protectedNames, ∃ (contents : Bytes) (response : Response),
    (⟨.readFile (pathText (root ++ [name])), some contents⟩ : Act webCalls) ∈ trace ∧
      outcome = .response response ∧ response.body = contents

/-- The path names the page, but is not the one that the route knows: it has segments that
name nothing, or begins with two slashes and the document root. -/
structure OtherSpelling (root : List Bytes) (path name : Bytes) : Prop where
  other : path ≠ slash :: name
  file : asksDirectory path = false
  same : components path = if (ascii "//").isPrefixOf path then root ++ [name] else [name]

/-- The page is there, and not too large. -/
def Servable (fs : FileSystem) (root : List Bytes) (name : Bytes) : Prop :=
  root ≠ [] ∧ ∃ contents, fs.entry (root ++ [name]) = some (.file contents) ∧
    contents.length ≤ kMaxResponseBytes

/-! ### Paths -/

section Paths

variable {root : List Bytes} {path rest name : Bytes}

/-- A decoded path begins with a slash. -/
theorem decodePath_slash {target : Bytes} (h : decodePath target = some path) :
    ∃ rest, path = slash :: rest := by
  rw [decodePath] at h
  simp only [Option.bind_eq_bind] at h
  split_ifs at h with hhead
  obtain ⟨decoded, hdecoded, hrest⟩ := Option.bind_eq_some_iff.mp h
  rw [not_not] at hhead
  obtain ⟨encoded, hencoded⟩ := List.head?_eq_some_iff.mp hhead
  rw [hencoded] at hdecoded
  unfold percentDecode at hdecoded
  rw [if_pos (by decide)] at hdecoded
  obtain ⟨tail, -, rfl⟩ := Option.map_eq_some_iff.mp hdecoded
  split_ifs at hrest
  · cases hrest
    exact ⟨_, rfl⟩
  · cases hrest
    exact ⟨tail, rfl⟩

theorem readClient_slash {received : List Bytes} {request : ParsedRequest}
    (h : readClient received = .ok (request, path)) : ∃ rest, path = slash :: rest := by
  rw [readClient] at h
  split at h
  · cases h
  · split_ifs at h
    split at h
    · cases h
    · next hdecoded =>
      cases h
      exact decodePath_slash hdecoded

theorem isPrefixOf_slashes :
    (ascii "//").isPrefixOf (slash :: rest) = true ↔ rest.head? = some slash := by
  rw [show ascii "//" = [slash, slash] from rfl, List.isPrefixOf_iff_prefix,
    List.prefix_cons_iff, List.head?_eq_some_iff]
  simp [List.cons_prefix_iff]

/-- The path below the document root, as the server makes it up, has the components of the
document root in front, unless it is absolute itself. -/
theorem appendPath_spec (hnames : ∀ part ∈ root, IsName part) (hroot : root ≠ [])
    (hpath : path = slash :: rest) :
    components (appendPath (pathText root) rest) =
        (if (ascii "//").isPrefixOf path then components path else root ++ components path) ∧
      asksDirectory (appendPath (pathText root) rest) = asksDirectory path := by
  subst hpath
  rw [components_slash, asksDirectory_slash, appendPath, show '/'.toUInt8 = slash from rfl]
  by_cases hslash : rest.head? = some slash
  · rw [if_pos hslash, if_pos (isPrefixOf_slashes.mpr hslash)]
    exact ⟨rfl, rfl⟩
  have hlast : ¬ (pathText root = [] ∨ (pathText root).getLast? = some slash) := by
    have hasks := asksDirectory_pathText hnames hroot
    rintro (hnil | hlast)
    · rw [hnil] at hasks
      cases hasks
    · obtain ⟨before, hbefore⟩ := List.getLast?_eq_some_iff.mp hlast
      rw [hbefore, asksDirectory_append_slash] at hasks
      cases hasks
  rw [if_neg hslash, if_neg (hslash ∘ isPrefixOf_slashes.mp), if_neg hlast, List.append_assoc]
  show components (pathText root ++ slash :: rest) = _ ∧
    asksDirectory (pathText root ++ slash :: rest) = _
  rw [components_append_slash, components_pathText hnames, asksDirectory_append_slash]
  exact ⟨rfl, rfl⟩

theorem weaklyCanonical_pathText (fs : FileSystem) (hnames : ∀ part ∈ root, IsName part) :
    fs.weaklyCanonical (pathText root) = pathText root := by
  have hplain : (fs.has (pathText root) || !asksDirectory (pathText root)) = true := by
    rcases eq_or_ne root [] with rfl | hroot
    · rw [FileSystem.has, components_pathText hnames, fs.root]
      rfl
    · rw [asksDirectory_pathText hnames hroot]
      exact Bool.or_true _
  rw [FileSystem.weaklyCanonical, if_pos hplain, components_pathText hnames]

/-- There are never two slashes at the beginning of a canonical path. -/
theorem weaklyCanonical_ne_slashes (fs : FileSystem) :
    fs.weaklyCanonical path ≠ slash :: slash :: rest := by
  have hnames : ∀ part ∈ components path, IsName part := fun _ => isName_of_mem_components
  have hplain : ∀ tail, components path ≠ [] →
      pathText (components path) ++ tail ≠ slash :: slash :: rest := by
    intro tail hne
    obtain ⟨part, parts, hparts⟩ := List.exists_cons_of_ne_nil hne
    have hpart : IsName part := hnames part (hparts ▸ List.mem_cons_self)
    rw [pathText, if_neg hne, hparts]
    obtain ⟨c, name, rfl⟩ := List.exists_cons_of_ne_nil (l := part) <| by
      rintro rfl
      cases hpart.1
    intro heq
    have hc : c = slash := by
      simp only [List.flatMap_cons, List.cons_append, List.cons.injEq, true_and] at heq
      exact heq.1
    exact hpart.2 (hc ▸ List.mem_cons_self)
  rw [FileSystem.weaklyCanonical]
  rcases eq_or_ne (components path) [] with hnil | hne
  · rw [FileSystem.has, hnil, fs.root]
    simp [pathText]
  · split_ifs
    · rw [← List.append_nil (pathText _)]
      exact hplain [] hne
    · exact hplain [slash] hne

end Paths

/-! ### Reading -/

def NeverReads {α : Type} (p : Prog webCalls α) : Prop :=
  p.Only fun call => ∀ file, call ≠ WebCall.readFile file

section Reading

variable {fs : FileSystem} {root : List Bytes} {s : HttpServer} {request : ParsedRequest}
  {path file contents : Bytes} {trace : Trace webCalls} {response : Response}

theorem NeverReads.elim {α : Type} {p : Prog webCalls α} {r : α} {contents : Option Bytes}
    (hp : NeverReads p) (h : p.Exec trace r)
    (hread : (⟨.readFile file, contents⟩ : Act webCalls) ∈ trace) : False :=
  hp.trace h _ hread file rfl

theorem resolveFile_neverReads (documentRoot : Bytes) :
    NeverReads (resolveFile documentRoot path) := by
  refine ⟨fun _ h => (by cases h), fun root => ?_⟩
  cases root with
  | none => trivial
  | some root =>
    refine ⟨fun _ h => (by cases h), fun file => ?_⟩
    cases file with
    | none => trivial
    | some file =>
      refine Prog.only_ite (fun _ => trivial) fun _ => ⟨fun _ h => (by cases h), fun regular => ?_⟩
      exact Prog.only_ite (fun _ => trivial) fun _ => ⟨fun _ h => (by cases h), fun _ => trivial⟩

/-- The file that has been found. -/
theorem resolveFile_found (hnames : ∀ part ∈ root, IsName part)
    (h : (resolveFile (pathText root) path).Exec trace (some file))
    (htrue : ∀ act ∈ trace, Truthful fs act) :
    file = fs.weaklyCanonical (appendPath (pathText root) (path.drop 1)) ∧ root ≠ [] ∧
      ∃ contents, fs.read file = some contents ∧ contents.length ≤ kMaxResponseBytes := by
  obtain ⟨canonicalRoot, rest, rfl, h₁⟩ := Prog.exec_call.mp h
  obtain _ | canonicalRoot := canonicalRoot
  · cases (Prog.exec_done.mp h₁).2
  obtain ⟨canonical, rest, rfl, h₂⟩ := Prog.exec_call.mp h₁
  obtain _ | canonical := canonical
  · cases (Prog.exec_done.mp h₂).2
  rw [List.forall_mem_cons, List.forall_mem_cons] at htrue
  obtain ⟨hroot, hcanonical, htrue⟩ := htrue
  obtain rfl : canonicalRoot = pathText root :=
    (hroot _ rfl).trans (weaklyCanonical_pathText fs hnames)
  replace hcanonical := hcanonical _ rfl
  simp only at h₂
  split_ifs at h₂ with houtside
  · cases (Prog.exec_done.mp h₂).2
  obtain ⟨regular, rest, rfl, h₃⟩ := Prog.exec_call.mp h₂
  obtain _ | _ := regular
  · cases (Prog.exec_done.mp h₃).2
  obtain ⟨size, rest, rfl, h₄⟩ := Prog.exec_call.mp h₃
  obtain ⟨rfl, hfile⟩ := Prog.exec_done.mp h₄
  rw [List.forall_mem_cons, List.forall_mem_singleton] at htrue
  obtain ⟨hregular, hsize⟩ := htrue
  obtain ⟨contents, hcontents⟩ := Option.isSome_iff_exists.mp (hregular rfl)
  obtain _ | size := size
  · cases hfile
  have hlength : contents.length = size := by
    have hlength := hsize size rfl
    rw [hcontents] at hlength
    exact Option.some.inj hlength
  simp only [Option.any_some, decide_eq_true_eq] at hfile
  split_ifs at hfile with hlarge
  cases hfile
  refine ⟨hcanonical, ?_, contents, hcontents, Nat.le_trans (Nat.le_of_eq hlength) hlarge⟩
  -- nothing is below a document root that is the root of all
  rintro rfl
  rw [not_and_or, not_not, not_not] at houtside
  obtain hsame | hbelow := houtside
  · have hentry := FileSystem.read_eq_some_iff.mp hcontents
    rw [hsame, components_pathText hnames, fs.root] at hentry
    cases hentry.1
  · obtain ⟨below, hbelow⟩ := List.isPrefixOf_iff_prefix.mp hbelow
    exact weaklyCanonical_ne_slashes fs (hcanonical.symm.trans hbelow.symm)

/-- What a request for a file reads. -/
theorem staticFile_reads (hnames : ∀ part ∈ root, IsName part) (hroot : s.documentRoot = pathText root)
    (h : (staticFile s request path).Exec trace response)
    (htrue : ∀ act ∈ trace, Truthful fs act) {answer : Option Bytes}
    (hread : (⟨.readFile file, answer⟩ : Act webCalls) ∈ trace) :
    isGet request = true ∧
      file = fs.weaklyCanonical (appendPath (pathText root) (path.drop 1)) ∧ root ≠ [] ∧
        ∃ contents, fs.read file = some contents ∧ contents.length ≤ kMaxResponseBytes := by
  rw [staticFile] at h
  split_ifs at h with hget
  · obtain ⟨rfl, -⟩ := Prog.exec_done.mp h
    cases hread
  obtain ⟨first, rest, found, rfl, hfound, h₁⟩ := Prog.exec_bind.mp h
  rw [List.forall_mem_append] at htrue
  have hrest : (⟨.readFile file, answer⟩ : Act webCalls) ∈ rest :=
    (List.mem_append.mp hread).resolve_left fun hfirst =>
      (resolveFile_neverReads s.documentRoot).elim hfound hfirst
  obtain _ | found := found
  · obtain ⟨rfl, -⟩ := Prog.exec_done.mp h₁
    cases hrest
  rw [hroot] at hfound
  have hspec := resolveFile_found hnames hfound htrue.1
  obtain ⟨opened, rest, rfl, h₂⟩ := Prog.exec_call.mp h₁
  obtain _ | _ := opened
  · obtain ⟨rfl, -⟩ := Prog.exec_done.mp h₂
    cases List.mem_singleton.mp hrest
  obtain ⟨contents, rest, rfl, h₃⟩ := Prog.exec_call.mp h₂
  obtain ⟨rfl, -⟩ := Prog.exec_done.mp h₃
  obtain heq | hrest := List.mem_cons.mp hrest
  · cases heq
  cases List.mem_singleton.mp hrest
  exact ⟨by simpa using hget, hspec⟩

end Reading

/-! ### Strangers -/

section Strangers

variable {s : HttpServer} {now : Nanoseconds} {remoteAddress path file : Bytes}
  {request : ParsedRequest} {trace : Trace webCalls} {r : HttpServer × Outcome}
  {answer : Option Bytes}

theorem withSession_stranger (hstranger : s.sessions.table.lookup (sessionCookie request) = none)
    (denied : Response) (granted : Bytes → Session → Handler) :
    withSession s now request denied granted = reply s denied := by
  rw [withSession, hstranger]

theorem telemetryRoute_neverReads : NeverReads (telemetryRoute s request) := by
  refine Prog.only_ite (fun _ => trivial) fun _ => Prog.only_ite (fun _ => trivial) fun _ => ?_
  refine Prog.only_ite (fun _ => trivial) fun _ => Prog.only_ite (fun _ => trivial) fun _ => ?_
  exact openWebsocket_only (fun _ h => by cases h) (fun _ h => by cases h) (fun _ h => by cases h)
    fun _ h => by cases h

theorem login_neverReads (h : (login s now remoteAddress request).Exec trace r)
    (hread : (⟨.readFile file, answer⟩ : Act webCalls) ∈ trace) : False := by
  obtain ⟨s', outcome⟩ := r
  have hcalls := login_calls (P := fun call => ∀ file, call ≠ .readFile file)
    (fun _ _ _ h => by cases h) (fun _ _ h => by cases h) (fun _ h => by cases h) (login_served h)
  exact hcalls _ hread file rfl

/-- The keeper of the files is asked for a file by strangers only on behalf of a page. -/
theorem route_reads (hstranger : s.sessions.table.lookup (sessionCookie request) = none)
    (h : (route s now remoteAddress request path).Exec trace r)
    (hread : (⟨.readFile file, answer⟩ : Act webCalls) ∈ trace) :
    ∃ page, (page = path ∧ path ∉ protectedPages ∨ page = ascii "/login.html" ∨
      page = ascii "/overview.html") ∧ (keeping s (staticFile s request page)).Exec trace r := by
  have hreply : ∀ {response : Response}, ¬ (reply s response).Exec trace r := by
    intro response h
    rw [(Prog.exec_done.mp h).1] at hread
    cases hread
  have hdenied : ∀ {granted : Bytes → Session → Handler} {denied : Response},
      ¬ (withSession s now request denied granted).Exec trace r := by
    intro granted denied h
    rw [withSession_stranger hstranger] at h
    exact hreply h
  have hgetOnly : ∀ {handler : Handler}, ¬ handler.Exec trace r →
      ¬ (getOnly s request handler).Exec trace r := by
    intro handler hhandler h
    exact h.of_ite (fun _ h => hreply h) fun _ h => hhandler h
  have hkeeping : ∀ {answering : Answering}, NeverReads answering →
      ¬ (keeping s answering).Exec trace r := by
    intro answering hanswering h
    have hnever : NeverReads (keeping s answering) :=
      Prog.only_bind hanswering fun response => show NeverReads (reply s response) from trivial
    exact hnever.elim h hread
  rw [route] at h
  refine h.of_ite (fun _ h => (telemetryRoute_neverReads.elim h hread).elim) fun _ h => ?_
  refine h.of_ite (fun _ h => (hkeeping (healthz_only fun _ h => by cases h) h).elim) fun _ h => ?_
  refine h.of_ite (fun _ h => (hkeeping (overview_only fun _ h => by cases h) h).elim) fun _ h => ?_
  refine h.of_ite (fun _ h => (hkeeping (health_only fun _ h => by cases h) h).elim) fun _ h => ?_
  refine h.of_ite (fun _ h => (hkeeping (latestSnapshot_only fun _ h => by cases h) h).elim)
    fun _ h => ?_
  refine h.of_ite (fun _ h => (hgetOnly hdenied h).elim) fun _ h => ?_
  refine h.of_ite (fun _ h => (hdenied h).elim) fun _ h => ?_
  refine h.of_ite (fun _ h => ?_) fun _ h => ?_
  · exact h.of_ite (fun _ h => (hreply h).elim) fun _ h => (hdenied h).elim
  refine h.of_ite (fun _ h => (hdenied h).elim) fun _ h => ?_
  refine h.of_ite (fun _ h => (hdenied h).elim) fun _ h => ?_
  refine h.of_ite (fun _ h => (hgetOnly hdenied h).elim) fun _ h => ?_
  refine h.of_ite (fun _ h => (hgetOnly hdenied h).elim) fun _ h => ?_
  refine h.of_ite (fun _ h => ?_) fun _ h => ?_
  · exact h.of_ite (fun _ h => (hreply h).elim) fun _ h => (hdenied h).elim
  refine h.of_ite (fun _ h => (hgetOnly hdenied h).elim) fun _ h => ?_
  refine h.of_ite (fun _ h => ?_) fun _ h => ?_
  · exact h.of_ite (fun _ h => (hreply h).elim) fun _ h => (hdenied h).elim
  refine h.of_ite (fun _ h => ?_) fun _ h => ?_
  · refine h.of_ite (fun _ h => (login_neverReads h hread).elim) fun _ h => ?_
    refine h.of_ite (fun _ h => (hdenied h).elim) fun _ h => ?_
    exact h.of_ite (fun _ h => (hdenied h).elim) fun _ h => (hreply h).elim
  refine h.of_ite (fun _ h => ?_) fun _ h => ?_
  · exact h.of_ite (fun _ h => (hdenied h).elim) fun _ h => (hreply h).elim
  refine h.of_ite (fun _ h => ?_) fun _ h => ?_
  · exact h.of_ite (fun _ h => (hdenied h).elim) fun _ h => (hreply h).elim
  refine h.of_ite (fun _ h => (hreply h).elim) fun _ h => ?_
  refine h.of_ite (fun _ h => ⟨_, .inr (.inl rfl), h⟩) fun _ h => ?_
  refine h.of_ite (fun _ h => ⟨_, .inr (.inr rfl), h⟩) fun _ h => ?_
  refine h.of_ite (fun _ h => ?_) fun hpath h => ⟨path, .inl ⟨rfl, hpath⟩, h⟩
  exact h.of_ite (fun _ h => (hreply h).elim) fun _ h => (hdenied h).elim

end Strangers

/-! ### Other spellings -/

/-- The path could be another spelling of a protected page. -/
def spellsPage (path : Bytes) : Bool :=
  (ascii "//").isPrefixOf path || protectedNames.any fun name => components path = [name]

section Spellings

variable {root : List Bytes} {path name : Bytes} {s : HttpServer} {now : Nanoseconds}
  {remoteAddress : Bytes} {request : ParsedRequest}

theorem OtherSpelling.spellsPage (h : OtherSpelling root path name) (hname : name ∈ protectedNames) :
    spellsPage path = true := by
  have hsame := h.same
  rw [Web.spellsPage]
  split_ifs at hsame with hslashes
  · rw [hslashes, Bool.true_or]
  · rw [Bool.or_eq_true, List.any_eq_true]
    exact .inr ⟨name, hname, decide_eq_true hsame⟩

theorem OtherSpelling.notMem_protectedPages (h : OtherSpelling root path name) :
    path ∉ protectedPages := by
  intro hmem
  rw [protectedPages_eq] at hmem
  obtain ⟨page, hpage, rfl⟩ := List.mem_map.mp hmem
  have hplain : ∀ page ∈ protectedNames, (ascii "//").isPrefixOf (slash :: page) = false ∧
      components (slash :: page) = [page] := by decide +kernel
  have hsame := h.same
  rw [(hplain page hpage).1, (hplain page hpage).2, if_neg Bool.false_ne_true] at hsame
  exact h.other (congrArg _ (List.singleton_inj.mp hsame))

/-- No route but that of the files knows the path. -/
theorem route_otherSpelling (hspells : spellsPage path = true) (hpage : path ∉ protectedPages) :
    route s now remoteAddress request path = keeping s (staticFile s request path) := by
  have hne : ∀ known, spellsPage known = false → ¬ path = known := by
    rintro known hknown rfl
    exact Bool.false_ne_true (hknown.symm.trans hspells)
  have hnotMem : ∀ known : List Bytes, (∀ path ∈ known, spellsPage path = false) →
      path ∉ known :=
    fun known hknown hmem => hne path (hknown path hmem) rfl
  have hapi : ¬ (ascii "/api/").isPrefixOf path = true := by
    intro hprefix
    obtain ⟨rest, rfl⟩ := List.isPrefixOf_iff_prefix.mp hprefix
    have hcomponents : components (ascii "/api/" ++ rest) = ascii "api" :: components rest :=
      @components_append_slash (ascii "/api") rest
    rw [spellsPage, Bool.or_eq_true, List.any_eq_true] at hspells
    obtain hslashes | ⟨name, hname, hsame⟩ := hspells
    · cases hslashes
    · rw [decide_eq_true_eq, hcomponents, List.cons.injEq] at hsame
      have hnames : ascii "api" ∉ protectedNames := by decide +kernel
      exact hnames (hsame.1 ▸ hname)
  rw [route]
  refine (if_neg (hne _ (by decide +kernel))).trans ?_
  refine (if_neg (hne _ (by decide +kernel))).trans ?_
  refine (if_neg (hne _ (by decide +kernel))).trans ?_
  refine (if_neg (hne _ (by decide +kernel))).trans ?_
  refine (if_neg (hne _ (by decide +kernel))).trans ?_
  refine (if_neg (hne _ (by decide +kernel))).trans ?_
  refine (if_neg (hnotMem _ (by decide +kernel))).trans ?_
  refine (if_neg (hne _ (by decide +kernel))).trans ?_
  refine (if_neg (hnotMem _ (by decide +kernel))).trans ?_
  refine (if_neg (hnotMem _ (by decide +kernel))).trans ?_
  refine (if_neg (hne _ (by decide +kernel))).trans ?_
  refine (if_neg (hnotMem _ (by decide +kernel))).trans ?_
  refine (if_neg (hne _ (by decide +kernel))).trans ?_
  refine (if_neg (hne _ (by decide +kernel))).trans ?_
  refine (if_neg (hne _ (by decide +kernel))).trans ?_
  refine (if_neg (hne _ (by decide +kernel))).trans ?_
  refine (if_neg (hne _ (by decide +kernel))).trans ?_
  refine (if_neg (hne _ (by decide +kernel))).trans ?_
  rw [if_neg hapi, pageRoute]
  have hlogin : ¬ (path = ascii "/login" ∨ path = ascii "/login.html") :=
    not_or.mpr ⟨hne _ (by decide +kernel), hne _ (by decide +kernel)⟩
  have hoverview : ¬ (path = ascii "/overview" ∨ path = ascii "/overview.html") :=
    not_or.mpr ⟨hne _ (by decide +kernel), hne _ (by decide +kernel)⟩
  rw [if_neg hlogin, if_neg hoverview, if_neg hpage]

/-- The canonical path of another spelling is that of the page. -/
theorem OtherSpelling.canonical (h : OtherSpelling root path name) (fs : FileSystem)
    (hnames : ∀ part ∈ root, IsName part) (hroot : root ≠ []) (hslash : ∃ rest, path = slash :: rest) :
    fs.weaklyCanonical (appendPath (pathText root) (path.drop 1)) = pathText (root ++ [name]) := by
  obtain ⟨rest, hpath⟩ := hslash
  obtain ⟨hcomponents, hasks⟩ := appendPath_spec hnames hroot hpath
  have hsame : components (appendPath (pathText root) rest) = root ++ [name] := by
    rw [hcomponents]
    have hsame := h.same
    split_ifs at hsame ⊢
    · exact hsame
    · rw [hsame]
  rw [hpath, List.drop_one, List.tail_cons, FileSystem.weaklyCanonical, hasks, h.file, Bool.not_false,
    Bool.or_true, if_pos rfl, hsame]

/-- What a stranger has to ask for. -/
theorem otherSpelling_of_reads {fs : FileSystem} (hnames : ∀ part ∈ root, IsName part)
    (hroot : root ≠ []) (hslash : ∃ rest, path = slash :: rest) (hother : path ∉ protectedPages)
    (hname : name ∈ protectedNames)
    (hfile : pathText (root ++ [name]) =
      fs.weaklyCanonical (appendPath (pathText root) (path.drop 1)))
    {contents : Bytes} (hcontents : fs.read (pathText (root ++ [name])) = some contents)
    (hlength : contents.length ≤ kMaxResponseBytes) :
    OtherSpelling root path name ∧ Servable fs root name := by
  obtain ⟨rest, hpath⟩ := hslash
  obtain ⟨hcomponents, hasks⟩ := appendPath_spec hnames hroot hpath
  rw [hpath, List.drop_one, List.tail_cons] at hfile
  have hparts : ∀ part ∈ root ++ [name], IsName part :=
    List.forall_mem_append.mpr ⟨hnames, List.forall_mem_singleton.mpr (isName_of_mem_protectedNames hname)⟩
  have hcanonical : components (appendPath (pathText root) rest) = root ++ [name] := by
    rw [← fs.components_weaklyCanonical, ← hfile, components_pathText hparts]
  have hread := hcontents
  rw [hfile, FileSystem.read_weaklyCanonical, FileSystem.read_eq_some_iff, hasks] at hread
  refine ⟨⟨?_, hread.2, ?_⟩, hroot, contents, ?_, hlength⟩
  · rintro rfl
    rw [protectedPages_eq] at hother
    exact hother (List.mem_map_of_mem hname)
  · rw [hcomponents] at hcanonical
    split_ifs at hcanonical ⊢
    · exact hcanonical
    · exact List.append_cancel_left hcanonical
  · rw [← hcanonical]
    exact hread.1

end Spellings

/-! ### Shown pages -/

section Shown

variable {fs : FileSystem} {root : List Bytes} {s : HttpServer} {now : Nanoseconds}
  {remoteAddress path name : Bytes} {received : List Bytes} {request : ParsedRequest}

/-- The answer to another spelling when nothing fails. -/
theorem exec_otherSpelling (now : Nanoseconds) (remoteAddress : Bytes) (hnames : ∀ part ∈ root, IsName part)
    (hroot : s.documentRoot = pathText root) (hread : readClient received = .ok (request, path))
    (hget : isGet request = true) (hname : name ∈ protectedNames)
    (hspelled : OtherSpelling root path name) (hservable : Servable fs root name) :
    ∃ trace s' outcome, (handleClient s now remoteAddress received).Exec trace (s', outcome) ∧
      (∀ act ∈ trace, Truthful fs act) ∧ Shows root trace outcome := by
  obtain ⟨hnonempty, contents, hentry, hlength⟩ := hservable
  have hcanonical := hspelled.canonical fs hnames hnonempty (readClient_slash hread)
  have hparts : ∀ part ∈ root ++ [name], IsName part :=
    List.forall_mem_append.mpr ⟨hnames, List.forall_mem_singleton.mpr (isName_of_mem_protectedNames hname)⟩
  have hcontents : fs.read (pathText (root ++ [name])) = some contents := by
    rw [FileSystem.read_eq_some_iff, components_pathText hparts]
    exact ⟨hentry, asksDirectory_pathText hparts (by simp)⟩
  have hbelow : ¬ (pathText (root ++ [name]) ≠ pathText root ∧
      ¬ (pathText root ++ ascii "/").isPrefixOf (pathText (root ++ [name])) = true) := by
    rw [not_and_or, not_not, not_not]
    refine .inr (List.isPrefixOf_iff_prefix.mpr ⟨name, ?_⟩)
    rw [pathText_append hnonempty, List.append_assoc]
    rfl
  rw [handleClient, hread]
  refine ⟨[⟨.weaklyCanonical s.documentRoot, some (pathText root)⟩,
    ⟨.weaklyCanonical (appendPath (pathText root) (path.drop 1)), some (pathText (root ++ [name]))⟩,
    ⟨.isRegularFile (pathText (root ++ [name])), (true : Bool)⟩,
    ⟨.fileSize (pathText (root ++ [name])), some contents.length⟩,
    ⟨.openFile (pathText (root ++ [name])), (true : Bool)⟩,
    ⟨.readFile (pathText (root ++ [name])), some contents⟩], s.cleaned now,
    .response ⟨200, contentType (pathText (root ++ [name])), contents, []⟩, ?_, ?_, name, hname,
    contents, _, by simp, rfl, rfl⟩
  · show (route (s.cleaned now) now remoteAddress request path).Exec _ (s.cleaned now, _)
    rw [route_otherSpelling (hspelled.spellsPage hname) hspelled.notMem_protectedPages, keeping,
      staticFile, if_neg (by simp [hget]), ← List.append_nil [_, _, _, _, _, _]]
    refine Prog.Exec.bind ?_ (.done _)
    have hfound : (resolveFile s.documentRoot path).Exec
        [⟨.weaklyCanonical s.documentRoot, some (pathText root)⟩,
          ⟨.weaklyCanonical (appendPath (pathText root) (path.drop 1)),
            some (pathText (root ++ [name]))⟩,
          ⟨.isRegularFile (pathText (root ++ [name])), (true : Bool)⟩,
          ⟨.fileSize (pathText (root ++ [name])), some contents.length⟩]
        (some (pathText (root ++ [name]))) := by
      apply Prog.Exec.call
      apply Prog.Exec.call
      simp only [if_neg hbelow]
      apply Prog.Exec.call
      apply Prog.Exec.call
      simp only [Option.any_some, decide_eq_true hlength, if_true]
      exact .done _
    refine Prog.Exec.bind hfound ?_
    apply Prog.Exec.call
    apply Prog.Exec.call
    exact .done _
  · simp only [List.forall_mem_cons]
    refine ⟨?_, ?_, fun _ => ?_, ?_, fun _ => ?_, ?_, List.forall_mem_nil _⟩
    · rintro _ ⟨⟩
      rw [hroot, weaklyCanonical_pathText fs hnames]
    · rintro _ ⟨⟩
      exact hcanonical.symm
    · rw [hcontents]
      rfl
    · rintro _ ⟨⟩
      rw [hcontents]
      rfl
    · rw [hcontents]
      rfl
    · rintro _ ⟨⟩
      exact hcontents

/-- A stranger is shown no protected page, unless by a GET of another spelling of its path,
while the page is there. -/
theorem pages_protected_iff (hnames : ∀ part ∈ root, IsName part)
    (hroot : s.documentRoot = pathText root) (hread : readClient received = .ok (request, path))
    (hstranger : ∀ session, s.sessions.table.lookup (sessionCookie request) = some session →
      session.expiresAt ≤ now) :
    (∀ trace s' outcome, (handleClient s now remoteAddress received).Exec trace (s', outcome) →
      (∀ act ∈ trace, Truthful fs act) → ¬ Shows root trace outcome) ↔
    ¬ (isGet request = true ∧
      ∃ name ∈ protectedNames, OtherSpelling root path name ∧ Servable fs root name) := by
  constructor
  · rintro hprotected ⟨hget, name, hname, hspelled, hservable⟩
    obtain ⟨trace, s', outcome, hexec, htrue, hshows⟩ :=
      exec_otherSpelling now remoteAddress hnames hroot hread hget hname hspelled hservable
    exact hprotected trace s' outcome hexec htrue hshows
  · rintro hplain trace s' outcome hexec htrue ⟨name, hname, contents, response, hact, -, -⟩
    rw [handleClient, hread] at hexec
    have hnone : (s.cleaned now).sessions.table.lookup (sessionCookie request) = none := by
      cases hfound : (s.cleaned now).sessions.table.lookup (sessionCookie request) with
      | none => rfl
      | some session =>
        obtain ⟨hbefore, hlive⟩ := lookup_cleaned.mp hfound
        exact absurd (hstranger session hbefore) (Int.not_le.mpr hlive)
    obtain ⟨page, hpage, hstatic⟩ := route_reads hnone hexec hact
    obtain ⟨answer, hanswering, -, -⟩ := exec_keeping hstatic
    obtain ⟨hget, hfile, hnonempty, found, hfound, hlength⟩ :=
      staticFile_reads hnames hroot hanswering htrue hact
    have hspells : ∀ {page : Bytes}, (∃ rest, page = slash :: rest) → page ∉ protectedPages →
        pathText (root ++ [name]) =
          fs.weaklyCanonical (appendPath (pathText root) (page.drop 1)) →
        OtherSpelling root page name ∧ Servable fs root name :=
      fun hslash hother hfile =>
        otherSpelling_of_reads hnames hnonempty hslash hother hname hfile hfound hlength
    obtain ⟨rfl, hother⟩ | rfl | rfl := hpage
    · exact hplain ⟨hget, name, hname, hspells (readClient_slash hread) hother hfile⟩
    · have hspelled := (hspells ⟨_, rfl⟩ (by decide +kernel) hfile).1.spellsPage hname
      revert hspelled
      decide +kernel
    · have hspelled := (hspells ⟨_, rfl⟩ (by decide +kernel) hfile).1.spellsPage hname
      revert hspelled
      decide +kernel

end Shown

/-! ### Two requests -/

def settingsBytes (target : String) : Bytes :=
  ascii "GET " ++ ascii target ++ ascii " HTTP/1.1" ++ crlf ++ ascii "Host: h" ++ crlf ++ crlf

def settingsRequest (target : String) : ParsedRequest where
  method := ascii "GET"
  target := ascii target
  version := ascii "HTTP/1.1"
  headers := [(ascii "host", ascii "h")]
  body := []

/-- A document root with a single page. -/
def settingsFiles : FileSystem where
  entry path :=
    if path = [] ∨ path = [ascii "srv"] then some .directory
    else if path = [ascii "srv", ascii "settings.html"] then some (.file (ascii "<html>"))
    else none
  root := rfl

theorem isName_srv : ∀ part ∈ [ascii "srv"], IsName part := by
  rw [List.forall_mem_singleton, IsName]
  decide +kernel

theorem no_session {request : ParsedRequest} (session : Session)
    (h : emptyServer.started.sessions.table.lookup (sessionCookie request) = some session) :
    session.expiresAt ≤ 0 := by
  cases h

/-- The page itself is not shown to a stranger. -/
theorem settings_protected : ¬ ∃ trace s' outcome,
    (handleClient emptyServer.started 0 [] [settingsBytes "/settings.html"]).Exec trace
      (s', outcome) ∧ (∀ act ∈ trace, Truthful settingsFiles act) ∧
      Shows [ascii "srv"] trace outcome := by
  have hread : readClient [settingsBytes "/settings.html"] =
      .ok (settingsRequest "/settings.html", ascii "/settings.html") :=
    readClient_eq_ok (by decide +kernel)
  rintro ⟨trace, s', outcome, h, htrue, hshows⟩
  refine (pages_protected_iff isName_srv rfl hread no_session).mpr ?_ trace s' outcome h htrue hshows
  rintro ⟨-, name, hname, hspelled, -⟩
  exact hspelled.notMem_protectedPages (by decide +kernel)

/-- With a "." in its path it is. -/
theorem settings_shown :
    readClient [settingsBytes "/./settings.html"] =
        .ok (settingsRequest "/./settings.html", ascii "/./settings.html") ∧
      emptyServer.started.sessions.table.lookup
        (sessionCookie (settingsRequest "/./settings.html")) = none ∧
      ∃ trace s' outcome,
        (handleClient emptyServer.started 0 [] [settingsBytes "/./settings.html"]).Exec trace
          (s', outcome) ∧ (∀ act ∈ trace, Truthful settingsFiles act) ∧
          Shows [ascii "srv"] trace outcome := by
  have hread : readClient [settingsBytes "/./settings.html"] =
      .ok (settingsRequest "/./settings.html", ascii "/./settings.html") :=
    readClient_eq_ok (by decide +kernel)
  have hspelled : OtherSpelling [ascii "srv"] (ascii "/./settings.html") (ascii "settings.html") :=
    ⟨by decide +kernel, by decide +kernel, by decide +kernel⟩
  have hentry : settingsFiles.entry ([ascii "srv"] ++ [ascii "settings.html"]) =
      some (.file (ascii "<html>")) := by
    simp only [settingsFiles]
    rw [if_neg (by decide +kernel), if_pos (by decide +kernel)]
  exact ⟨hread, rfl, exec_otherSpelling 0 [] isName_srv rfl hread (by decide +kernel)
    (by decide +kernel) hspelled ⟨by simp, ascii "<html>", hentry, by decide +kernel⟩⟩

end Uhf.Web
