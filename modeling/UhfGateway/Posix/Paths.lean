/-
Paths in a file system without symbolic links.

A path is the text of an absolute path.  Its segments between the slashes are its
components, but for the empty ones and ".", which name nothing.  There is no "..": a
program whose paths are to be followed here has rejected it before.

* `FileSystem.weaklyCanonical` — a path without the segments that name nothing;
* `FileSystem.components_weaklyCanonical`, `FileSystem.read_weaklyCanonical` — it names
  the same file.
-/
import Mathlib.Data.List.Basic
import Mathlib.Tactic.Common

namespace Posix

abbrev Text := List UInt8

def slash : UInt8 := 0x2F

def dot : UInt8 := 0x2E

/-- The segment names something. -/
def names (segment : Text) : Bool := segment ≠ [] && segment ≠ [dot]

def components (path : Text) : List Text := (path.splitOn slash).filter names

/-- A slash or a "." at the end asks for a directory. -/
def asksDirectory (path : Text) : Bool := !(path.splitOn slash).getLast?.any names

/-- The text of a path with these components, without anything else. -/
def pathText (components : List Text) : Text :=
  if components = [] then [slash] else components.flatMap (slash :: ·)

/-- What a component can be. -/
def IsName (component : Text) : Prop := names component = true ∧ slash ∉ component

section Paths

variable {path path' component : Text} {parts : List Text}

theorem components_append_slash :
    components (path ++ slash :: path') = components path ++ components path' := by
  rw [components, List.splitOn_append_cons_self, List.filter_append]
  rfl

theorem components_slash : components (slash :: path) = components path :=
  @components_append_slash [] path

theorem asksDirectory_append_slash :
    asksDirectory (path ++ slash :: path') = asksDirectory path' := by
  rw [asksDirectory, List.splitOn_append_cons_self,
    List.getLast?_append_of_ne_nil _ (List.splitOn_ne_nil slash path')]
  rfl

theorem asksDirectory_slash : asksDirectory (slash :: path) = asksDirectory path :=
  @asksDirectory_append_slash [] path

/-- No segment holds a slash. -/
theorem slash_notMem_of_mem_splitOn {segment : Text} (h : segment ∈ path.splitOn slash) :
    slash ∉ segment := by
  induction path generalizing segment with
  | nil =>
    rw [List.splitOn_nil, List.mem_singleton] at h
    rw [h]
    exact List.not_mem_nil
  | cons c rest ih =>
    rw [List.splitOn_cons_eq_if_modifyHead] at h
    split_ifs at h with hslash
    · obtain rfl | hrest := List.mem_cons.mp h
      · exact List.not_mem_nil
      · exact ih hrest
    · obtain ⟨first, others, heq⟩ := List.exists_cons_of_ne_nil (List.splitOn_ne_nil slash rest)
      rw [heq, List.modifyHead_cons] at h
      obtain rfl | hothers := List.mem_cons.mp h
      · have hfirst : slash ∉ first := ih (heq ▸ List.mem_cons_self)
        have hc : slash ≠ c := fun hc => hslash (beq_iff_eq.mpr hc.symm)
        exact List.not_mem_cons_of_ne_of_not_mem hc hfirst
      · exact ih (heq ▸ List.mem_cons_of_mem _ hothers)

theorem isName_of_mem_components (h : component ∈ components path) : IsName component := by
  obtain ⟨hmem, hnames⟩ := List.mem_filter.mp h
  exact ⟨hnames, slash_notMem_of_mem_splitOn hmem⟩

theorem IsName.components (h : IsName component) : components component = [component] := by
  rw [Posix.components, List.splitOn_eq_singleton h.2, List.filter_cons_of_pos h.1, List.filter_nil]

theorem IsName.asksDirectory (h : IsName component) : asksDirectory component = false := by
  rw [Posix.asksDirectory, List.splitOn_eq_singleton h.2]
  simp [h.1]

theorem components_flatMap (h : ∀ part ∈ parts, IsName part) :
    components (parts.flatMap (slash :: ·)) = parts := by
  induction parts with
  | nil => rfl
  | cons part rest ih =>
    rw [List.forall_mem_cons] at h
    rw [List.flatMap_cons, List.cons_append, components_slash]
    have hsplit : components (part ++ rest.flatMap (slash :: ·)) =
        components part ++ components (rest.flatMap (slash :: ·)) := by
      cases rest with
      | nil => simp [components, names]
      | cons next others =>
        rw [List.flatMap_cons, List.cons_append, components_append_slash, components_slash]
    rw [hsplit, h.1.components, ih h.2]
    rfl

theorem components_pathText (h : ∀ part ∈ parts, IsName part) :
    components (pathText parts) = parts := by
  rw [pathText]
  split_ifs with hnil
  · rw [hnil]
    rfl
  · exact components_flatMap h

theorem pathText_append (h : parts ≠ []) :
    pathText (parts ++ [component]) = pathText parts ++ slash :: component := by
  rw [pathText, if_neg (by simp), pathText, if_neg h, List.flatMap_append]
  simp

theorem asksDirectory_pathText (h : ∀ part ∈ parts, IsName part) (hne : parts ≠ []) :
    asksDirectory (pathText parts) = false := by
  obtain ⟨before, last, rfl⟩ := (List.eq_nil_or_concat parts).resolve_left hne
  rw [List.concat_eq_append] at h ⊢
  have hlast : IsName last := h last (by simp)
  rcases eq_or_ne before [] with rfl | hbefore
  · rw [pathText, if_neg (by simp)]
    show asksDirectory (slash :: (last ++ [])) = false
    rw [List.append_nil, asksDirectory_slash, hlast.asksDirectory]
  · rw [pathText_append hbefore, asksDirectory_append_slash, hlast.asksDirectory]

end Paths

/-! ### Files -/

inductive Entry
  | directory
  | file (contents : Text)

structure FileSystem where
  entry : List Text → Option Entry
  root : entry [] = some .directory

namespace FileSystem

/-- The contents of a regular file. -/
def read (fs : FileSystem) (path : Text) : Option Text :=
  match fs.entry (components path) with
  | some (.file contents) => if asksDirectory path then none else some contents
  | _ => none

def has (fs : FileSystem) (path : Text) : Bool :=
  match fs.entry (components path) with
  | some .directory => true
  | some (.file _) => !asksDirectory path
  | none => false

/-- The path of what there is, and of what there is not without the segments that name
nothing; but a slash at its end stays. -/
def weaklyCanonical (fs : FileSystem) (path : Text) : Text :=
  if fs.has path || !asksDirectory path then pathText (components path)
  else pathText (components path) ++ [slash]

variable {fs : FileSystem} {path : Text}

theorem components_weaklyCanonical :
    components (fs.weaklyCanonical path) = components path := by
  have hnames : ∀ part ∈ components path, IsName part := fun _ => isName_of_mem_components
  rw [weaklyCanonical]
  split_ifs
  · exact components_pathText hnames
  · rw [components_append_slash, components_pathText hnames]
    exact List.append_nil _

theorem read_eq_some_iff {contents : Text} :
    fs.read path = some contents ↔
      fs.entry (components path) = some (.file contents) ∧ asksDirectory path = false := by
  rw [read]
  cases hentry : fs.entry (components path) with
  | none => simp
  | some entry =>
    cases entry with
    | directory => simp
    | file found => simp [and_comm]

/-- What is there has the same file behind its canonical path. -/
theorem read_weaklyCanonical : fs.read (fs.weaklyCanonical path) = fs.read path := by
  ext contents
  rw [read_eq_some_iff, read_eq_some_iff,
    components_weaklyCanonical, and_congr_right_iff]
  intro hentry
  -- a file is not the root, so that its path ends with a name
  have hne : components path ≠ [] := by
    intro hnil
    rw [hnil, fs.root] at hentry
    cases hentry
  have hnames : ∀ part ∈ components path, IsName part := fun _ => isName_of_mem_components
  have hhas : fs.has path = !asksDirectory path := by
    rw [has, hentry]
  rw [weaklyCanonical, hhas, Bool.or_self]
  cases hasks : asksDirectory path with
  | false => simp [asksDirectory_pathText hnames hne]
  | true =>
    rw [if_neg (by simp), asksDirectory_append_slash]
    simp [asksDirectory, names]

end FileSystem

end Posix
