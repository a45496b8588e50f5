/-
Entities in a text (`unescape` of `iec61850/scl_model`).

`unescape` goes over the whole text once for every entity.  A pass could in principle meet what
an earlier one has put together.  It does not: an entity begins with a character that stands
nowhere else in an entity, what is put in for one stands in none of the later ones, and the one
character that begins an entity is put in last.

* `replaceAll_decodeOnce` — one more pass decodes one more entity;
* `entity_decoding` — all passes are one pass, so `unescape` takes back what has been escaped.
-/
import UhfGateway.Iec61850.SclModel

namespace Uhf.Iec61850

/-! ### One pass -/

/-- The first of the entities that the text begins with. -/
def entityAt (entities : List (Bytes × Bytes)) (input : Bytes) : Option (Bytes × Bytes) :=
  entities.find? fun r => r.1.isPrefixOf input

/-- From left to right, and what has been put in for an entity is not looked at again. -/
def decodeOnce (entities : List (Bytes × Bytes)) : Bytes → Bytes
  | [] => []
  | c :: input =>
    match entityAt entities (c :: input) with
    | some r => r.2 ++ decodeOnce entities (input.drop (r.1.length - 1))
    | none => c :: decodeOnce entities input
termination_by input => input.length
decreasing_by
  · simp only [List.length_drop, List.length_cons]
    omega
  · simp

/-- The text begins with the mark, which comes no second time. -/
def Marked (mark : UInt8) (text : Bytes) : Prop := ∃ name, text = mark :: name ∧ mark ∉ name

/-- What is put in for the first entity stands nowhere in the second one. -/
def Apart (first second : Bytes × Bytes) : Prop := first.2 ≠ [] ∧ ∀ c ∈ first.2, c ∉ second.1

theorem entityAt_none {entities : List (Bytes × Bytes)} {input : Bytes} :
    entityAt entities input = none ↔ ∀ r ∈ entities, ¬ r.1 <+: input := by
  rw [entityAt, List.find?_eq_none]
  simp only [List.isPrefixOf_iff_prefix]

theorem entityAt_some {entities : List (Bytes × Bytes)} {input : Bytes} {r : Bytes × Bytes}
    (h : entityAt entities input = some r) : r ∈ entities ∧ r.1 <+: input := by
  rw [entityAt] at h
  have hfound := List.find?_some h
  exact ⟨List.mem_of_find?_eq_some h, List.isPrefixOf_iff_prefix.mp hfound⟩

theorem Marked.not_begins {mark c : UInt8} {text input : Bytes} (h : Marked mark text)
    (hc : c ≠ mark) : ¬ text <+: c :: input := by
  obtain ⟨name, rfl, -⟩ := h
  intro hprefix
  exact hc (List.cons_prefix_cons.mp hprefix).1.symm

section Passes

variable {mark : UInt8} {entities : List (Bytes × Bytes)}

theorem decodeOnce_nil : decodeOnce entities [] = [] := by rw [decodeOnce]

theorem decodeOnce_none {c : UInt8} {input : Bytes} (h : entityAt entities (c :: input) = none) :
    decodeOnce entities (c :: input) = c :: decodeOnce entities input := by
  rw [decodeOnce, h]

theorem decodeOnce_some {input : Bytes} {r : Bytes × Bytes} (hmarked : Marked mark r.1)
    (h : entityAt entities input = some r) :
    decodeOnce entities input = r.2 ++ decodeOnce entities (input.drop r.1.length) := by
  obtain ⟨name, hname, -⟩ := hmarked
  obtain ⟨rest, hrest⟩ := (entityAt_some h).2
  rw [hname, List.cons_append] at hrest
  rw [← hrest, hname, decodeOnce, hrest, h]
  simp only [hname, List.length_cons, Nat.add_sub_cancel, ← hrest, List.drop_succ_cons]

theorem replaceAll_none {pattern replacement input : Bytes} {c : UInt8}
    (h : ¬ pattern <+: c :: input) :
    replaceAll pattern replacement (c :: input) = c :: replaceAll pattern replacement input := by
  rw [replaceAll, if_neg (mt List.isPrefixOf_iff_prefix.mp h)]

theorem replaceAll_append {pattern replacement : Bytes} (h : Marked mark pattern) (rest : Bytes) :
    replaceAll pattern replacement (pattern ++ rest) =
      replacement ++ replaceAll pattern replacement rest := by
  obtain ⟨name, rfl, -⟩ := h
  have hprefix : (mark :: name).isPrefixOf (mark :: (name ++ rest)) = true :=
    List.isPrefixOf_iff_prefix.mpr (List.prefix_append (mark :: name) rest)
  rw [List.cons_append, replaceAll, if_pos hprefix, List.length_cons, Nat.add_sub_cancel,
    List.drop_left]

/-- Nothing is replaced where the mark does not stand. -/
theorem replaceAll_unmarked {pattern replacement front : Bytes} (h : Marked mark pattern)
    (hfront : mark ∉ front) (rest : Bytes) :
    replaceAll pattern replacement (front ++ rest) =
      front ++ replaceAll pattern replacement rest := by
  induction front with
  | nil => rfl
  | cons c front ih =>
    rw [List.mem_cons, not_or] at hfront
    obtain ⟨hc, hfront⟩ := hfront
    rw [List.cons_append, replaceAll_none (h.not_begins (Ne.symm hc)), ih hfront, List.cons_append]

theorem decodeOnce_unmarked {front : Bytes} (hmarked : ∀ r ∈ entities, Marked mark r.1)
    (hfront : mark ∉ front) (rest : Bytes) :
    decodeOnce entities (front ++ rest) = front ++ decodeOnce entities rest := by
  induction front with
  | nil => rfl
  | cons c front ih =>
    rw [List.mem_cons, not_or] at hfront
    obtain ⟨hc, hfront⟩ := hfront
    have hnone : entityAt entities (c :: (front ++ rest)) = none :=
      entityAt_none.mpr fun r hr => (hmarked r hr).not_begins (Ne.symm hc)
    rw [List.cons_append, decodeOnce_none hnone, ih hfront, List.cons_append]

/-- What has been put in is no part of a text that it stands apart from, so such a text was there
before. -/
theorem prefix_of_decodeOnce {text input : Bytes}
    (hapart : ∀ r ∈ entities, r.2 ≠ [] ∧ ∀ c ∈ r.2, c ∉ text)
    (h : text <+: decodeOnce entities input) : text <+: input := by
  induction text generalizing input with
  | nil => exact List.nil_prefix
  | cons d text ih =>
    cases input with
    | nil => rwa [decodeOnce_nil] at h
    | cons c input =>
      cases hentity : entityAt entities (c :: input) with
      | some r =>
        obtain ⟨hnonempty, hforeign⟩ := hapart r (entityAt_some hentity).1
        obtain ⟨e, put, hput⟩ := List.exists_cons_of_ne_nil hnonempty
        rw [decodeOnce, hentity] at h
        simp only [hput, List.cons_append, List.cons_prefix_cons] at h
        exact absurd (h.1 ▸ List.mem_cons_self) (hforeign e (hput ▸ List.mem_cons_self))
      | none =>
        rw [decodeOnce_none hentity, List.cons_prefix_cons] at h
        obtain ⟨hfirst, hrest⟩ := h
        have hinner : ∀ r ∈ entities, r.2 ≠ [] ∧ ∀ c ∈ r.2, c ∉ text := by
          intro r hr
          obtain ⟨hnonempty, hforeign⟩ := hapart r hr
          exact ⟨hnonempty, fun c hc hmem => hforeign c hc (List.mem_cons_of_mem d hmem)⟩
        exact List.cons_prefix_cons.mpr ⟨hfirst, ih hinner hrest⟩

/-- One more pass decodes one more entity. -/
theorem replaceAll_decodeOnce {entity : Bytes × Bytes}
    (hmarked : ∀ r ∈ entities, Marked mark r.1) (hentity : Marked mark entity.1)
    (hapart : ∀ r ∈ entities, Apart r entity) (input : Bytes) :
    replaceAll entity.1 entity.2 (decodeOnce entities input) =
      decodeOnce (entities ++ [entity]) input := by
  have hall : ∀ r ∈ entities ++ [entity], Marked mark r.1 := by
    intro r hr
    rw [List.mem_append, List.mem_singleton] at hr
    obtain hr | rfl := hr
    · exact hmarked r hr
    · exact hentity
  obtain ⟨name, hname, hmark⟩ := hentity
  induction h : input.length using Nat.strong_induction_on generalizing input with
  | _ n ih =>
    subst h
    cases input with
    | nil => rw [decodeOnce_nil, decodeOnce_nil, replaceAll]
    | cons c input =>
      have hfind : entityAt (entities ++ [entity]) (c :: input) =
          (entityAt entities (c :: input)).or (entityAt [entity] (c :: input)) :=
        List.find?_append
      cases hbefore : entityAt entities (c :: input) with
      | some r =>
        -- One of the earlier entities: what is put in for it is left alone.
        obtain ⟨hr, hprefix⟩ := entityAt_some hbefore
        have hmember : Marked mark r.1 := hmarked r hr
        have hput : mark ∉ r.2 := by
          intro hmem
          exact (hapart r hr).2 mark hmem (hname ▸ List.mem_cons_self)
        have hshort : ((c :: input).drop r.1.length).length < (c :: input).length := by
          obtain ⟨rname, hrname, -⟩ := hmember
          rw [List.length_drop, hrname, List.length_cons, List.length_cons]
          omega
        rw [hbefore, Option.some_or] at hfind
        rw [decodeOnce_some hmember hbefore, decodeOnce_some hmember hfind,
          replaceAll_unmarked ⟨name, hname, hmark⟩ hput, ih _ hshort _ rfl]
      | none =>
        rw [hbefore, Option.none_or] at hfind
        by_cases hhere : entity.1 <+: c :: input
        · -- The new entity: no other one begins inside of it.
          obtain ⟨rest, hrest⟩ := hhere
          have hsome : entityAt [entity] (c :: input) = some entity := by
            rw [entityAt, List.find?_cons_of_pos]
            exact List.isPrefixOf_iff_prefix.mpr ⟨rest, hrest⟩
          have hkept : decodeOnce entities (c :: input) = entity.1 ++ decodeOnce entities rest := by
            rw [hname, List.cons_append, List.cons.injEq] at hrest
            obtain ⟨rfl, rfl⟩ := hrest
            rw [decodeOnce_none hbefore, decodeOnce_unmarked hmarked hmark, hname, List.cons_append]
          have hdrop : (c :: input).drop entity.1.length = rest := by
            rw [← hrest, List.drop_left]
          have hshort : rest.length < (c :: input).length := by
            rw [← hrest, List.length_append, hname, List.length_cons]
            omega
          rw [hsome] at hfind
          rw [hkept, replaceAll_append ⟨name, hname, hmark⟩, ih _ hshort _ rfl,
            decodeOnce_some ⟨name, hname, hmark⟩ hfind, hdrop]
        · have hnone : entityAt [entity] (c :: input) = none := by
            rw [entityAt_none]
            intro r hr
            rwa [List.mem_singleton.mp hr]
          have hlater : ¬ entity.1 <+: c :: decodeOnce entities input := by
            intro hprefix
            rw [← decodeOnce_none hbefore] at hprefix
            exact hhere (prefix_of_decodeOnce hapart hprefix)
          rw [hnone] at hfind
          rw [decodeOnce_none hbefore, decodeOnce_none hfind, replaceAll_none hlater,
            ih _ (Nat.lt_succ_self _) _ rfl]

theorem foldl_replaceAll {later : List (Bytes × Bytes)}
    (hmarked : ∀ r ∈ entities ++ later, Marked mark r.1)
    (hapart : (entities ++ later).Pairwise Apart) (input : Bytes) :
    later.foldl (fun value r => replaceAll r.1 r.2 value) (decodeOnce entities input) =
      decodeOnce (entities ++ later) input := by
  induction later generalizing entities with
  | nil => rw [List.append_nil, List.foldl_nil]
  | cons entity later ih =>
    have hpass : replaceAll entity.1 entity.2 (decodeOnce entities input) =
        decodeOnce (entities ++ [entity]) input := by
      refine replaceAll_decodeOnce (fun r hr => hmarked r (List.mem_append_left _ hr))
        (hmarked entity (List.mem_append_right _ List.mem_cons_self)) ?_ input
      intro r hr
      exact (List.pairwise_append.mp hapart).2.2 r hr entity List.mem_cons_self
    rw [List.foldl_cons, hpass, ih, List.append_assoc, List.singleton_append]
    · rwa [List.append_assoc, List.singleton_append]
    · rwa [List.append_assoc, List.singleton_append]

theorem decodeOnce_no_entities (input : Bytes) : decodeOnce [] input = input := by
  induction input with
  | nil => exact decodeOnce_nil
  | cons c input ih => rw [decodeOnce_none rfl, ih]

end Passes

/-! ### The predefined entities -/

theorem replacements_marked : ∀ r ∈ replacements, Marked '&'.toUInt8 r.1 := by
  simp only [replacements, List.forall_mem_cons]
  refine ⟨⟨ascii "quot;", rfl, ?_⟩, ⟨ascii "apos;", rfl, ?_⟩, ⟨ascii "lt;", rfl, ?_⟩,
    ⟨ascii "gt;", rfl, ?_⟩, ⟨ascii "amp;", rfl, ?_⟩, nofun⟩ <;> decide

theorem replacements_bytes : replacements =
    [([0x26, 0x71, 0x75, 0x6F, 0x74, 0x3B], [0x22]), ([0x26, 0x61, 0x70, 0x6F, 0x73, 0x3B], [0x27]),
      ([0x26, 0x6C, 0x74, 0x3B], [0x3C]), ([0x26, 0x67, 0x74, 0x3B], [0x3E]),
      ([0x26, 0x61, 0x6D, 0x70, 0x3B], [0x26])] :=
  rfl

theorem replacements_apart : replacements.Pairwise Apart := by
  rw [replacements_bytes]
  simp [Apart]

/-- All passes are one pass. -/
theorem unescape_eq (value : Bytes) : unescape value = decodeOnce replacements value := by
  have hpasses : unescape (decodeOnce [] value) = decodeOnce replacements value :=
    @foldl_replaceAll _ [] _ replacements_marked replacements_apart value
  rw [decodeOnce_no_entities] at hpasses
  exact hpasses

/-- A text with some of its characters written as entities, `&` always. -/
inductive Escapes : Bytes → Bytes → Prop
  | nil : Escapes [] []
  | plain {c : UInt8} {value text : Bytes} (h : c ≠ '&'.toUInt8) :
      Escapes value text → Escapes (c :: value) (c :: text)
  | entity {c : UInt8} {name value text : Bytes} (h : (name, [c]) ∈ replacements) :
      Escapes value text → Escapes (c :: value) (name ++ text)

theorem decodeOnce_of_escapes {value text : Bytes} (h : Escapes value text) :
    decodeOnce replacements text = value := by
  induction h with
  | nil => exact decodeOnce_nil
  | @plain c value text hc _ ih =>
    have hfront : '&'.toUInt8 ∉ [c] := by
      rw [List.mem_singleton]
      exact Ne.symm hc
    have hplain := decodeOnce_unmarked replacements_marked hfront text
    rw [ih] at hplain
    exact hplain
  | @entity c name value text hname _ ih =>
    have hfind : entityAt replacements (name ++ text) = some (name, [c]) := by
      simp only [replacements, List.mem_cons, Prod.mk.injEq, List.not_mem_nil, or_false] at hname
      obtain ⟨rfl, hc⟩ | ⟨rfl, hc⟩ | ⟨rfl, hc⟩ | ⟨rfl, hc⟩ | ⟨rfl, hc⟩ := hname <;>
        rw [hc] <;> rfl
    rw [decodeOnce_some (replacements_marked _ hname) hfind, List.drop_left, ih]
    rfl

/-- A text with every character that has an entity written as one. -/
def xmlEscape (value : Bytes) : Bytes :=
  value.flatMap fun c =>
    match replacements.find? fun r => r.2 = [c] with
    | some r => r.1
    | none => [c]

theorem escapes_xmlEscape (value : Bytes) : Escapes value (xmlEscape value) := by
  induction value with
  | nil => exact .nil
  | cons c value ih =>
    rw [xmlEscape, List.flatMap_cons, ← xmlEscape]
    cases hfind : replacements.find? fun r => r.2 = [c] with
    | some r =>
      have hput : r.2 = [c] := by simpa using List.find?_some hfind
      have hmem := List.mem_of_find?_eq_some hfind
      rw [show r = (r.1, [c]) by rw [← hput]] at hmem
      exact .entity hmem ih
    | none =>
      refine .plain ?_ ih
      rintro rfl
      rw [List.find?_eq_none] at hfind
      exact hfind (ascii "&amp;", ascii "&") (by simp [replacements]) rfl

end Uhf.Iec61850
