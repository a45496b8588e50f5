/-
Reading a request from the pieces that arrive.

`read_request` looks at its limits when a piece has been appended, and the piece may hold bytes
from behind the header or the body.

* `readRequest_fill` — both loops as a buffer that is filled;
* `reading_independent_iff` — for which bytes it does not matter how they are cut.
-/
import UhfGateway.Containers.Pieces
import UhfGateway.Web.HttpRequest

namespace Uhf.Web

open Containers

/-- The size of the buffer of one call. -/
def kReceiveBytes : ℕ := 1024

/-- The bytes, cut into what single calls receive. -/
structure Arriving (bytes : Bytes) (pieces : List Bytes) : Prop where
  content : pieces.flatten = bytes
  some : ∀ piece ∈ pieces, piece ≠ []
  size : ∀ piece ∈ pieces, piece.length ≤ kReceiveBytes

/-! ### The two loops -/

theorem readHeader_fill {request : Bytes} {pieces : List Bytes} {header rest : Bytes}
    (hcut : cut (crlf ++ crlf) (request ++ pieces.flatten) = some (header, rest))
    (hsome : ∀ piece ∈ pieces, piece ≠ []) (hsize : request.length ≤ kMaxHeaderBytes) :
    readHeader request pieces =
      if (fill (header.length + 4) request pieces).1.length ≤ kMaxHeaderBytes then
        some (fill (header.length + 4) request pieces)
      else none := by
  induction pieces generalizing request with
  | nil =>
    rw [List.flatten_nil, List.append_nil] at hcut
    rw [readHeader, hcut, fill, if_pos hsize]
    rfl
  | cons piece pieces ih =>
    have hfound := cut_isSome_iff hcut
    rw [show (crlf ++ crlf).length = 4 from rfl] at hfound
    rw [readHeader]
    by_cases hfull : header.length + 4 ≤ request.length
    · rw [if_pos (hfound.mpr hfull), fill_stop hfull, if_pos hsize]
    obtain ⟨hpiece, hrest⟩ := List.forall_mem_cons.mp hsome
    rw [if_neg (fun h => hfull (hfound.mp h)), if_neg hpiece, fill_next (Nat.not_le.mp hfull)]
    rw [List.flatten_cons, ← List.append_assoc] at hcut
    by_cases hlimit : (request ++ piece).length ≤ kMaxHeaderBytes
    · rw [List.length_append] at hlimit
      rw [if_neg, if_neg (Nat.not_lt.mpr hlimit), ih hcut hrest (by rwa [List.length_append])]
      rw [kMaxRequestBytes]
      omega
    · -- too much for a header, and the buffer only grows
      have hgrows :=
        (@buffer_isPrefix_fill _ (header.length + 4) (request ++ piece) pieces).length_le
      rw [if_neg (c := _ ≤ kMaxHeaderBytes) (by omega)]
      rw [List.length_append] at hlimit
      rw [if_pos (c := kMaxHeaderBytes < _) (Nat.not_le.mp hlimit), ite_self]

theorem readBody_fill {required : ℕ} {request : Bytes} {pieces : List Bytes}
    (hsome : ∀ piece ∈ pieces, piece ≠ []) (hsize : request.length ≤ kMaxRequestBytes) :
    readBody required request pieces =
      if required ≤ (fill required request pieces).1.length ∧
          (fill required request pieces).1.length ≤ kMaxRequestBytes then
        some (fill required request pieces).1
      else none := by
  induction pieces generalizing request with
  | nil =>
    rw [readBody, fill]
    simp only [hsize, and_true]
  | cons piece pieces ih =>
    rw [readBody]
    by_cases hfull : required ≤ request.length
    · rw [if_pos hfull, fill_stop hfull, if_pos ⟨hfull, hsize⟩]
    obtain ⟨hpiece, hrest⟩ := List.forall_mem_cons.mp hsome
    rw [if_neg hfull, if_neg hpiece, fill_next (Nat.not_le.mp hfull)]
    by_cases hlimit : (request ++ piece).length ≤ kMaxRequestBytes
    · rw [if_neg, ih hrest hlimit]
      rw [List.length_append] at hlimit
      omega
    · have hgrows := (@buffer_isPrefix_fill _ required (request ++ piece) pieces).length_le
      rw [if_neg (c := _ ∧ _) fun h => hlimit (Nat.le_trans hgrows h.2), if_pos]
      rw [List.length_append] at hlimit
      omega

theorem readHeader_none {request : Bytes} {pieces : List Bytes}
    (hcut : cut (crlf ++ crlf) (request ++ pieces.flatten) = none) :
    readHeader request pieces = none := by
  induction pieces generalizing request with
  | nil =>
    rw [List.flatten_nil, List.append_nil] at hcut
    rw [readHeader, hcut]
    rfl
  | cons piece pieces ih =>
    have hrequest := cut_none hcut
    rw [List.flatten_cons, ← List.append_assoc] at hcut
    rw [readHeader, hrequest, ih hcut, if_neg (by simp), ite_self, ite_self, ite_self]

/-- Both loops, for bytes with a header. -/
theorem readRequest_fill {bytes header rest : Bytes} {pieces : List Bytes}
    (hcut : cut (crlf ++ crlf) bytes = some (header, rest)) (h : Arriving bytes pieces) :
    readRequest pieces =
      if (fill (header.length + 4) [] pieces).1.length ≤ kMaxHeaderBytes then
        (parseHeaderBlock header).bind fun fields =>
          if header.length + 4 + fields.2 ≤
                (fill (header.length + 4 + fields.2) [] pieces).1.length ∧
              (fill (header.length + 4 + fields.2) [] pieces).1.length ≤ kMaxRequestBytes then
            some (fill (header.length + 4 + fields.2) [] pieces).1
          else none
      else none := by
  have hcontent : cut (crlf ++ crlf) ([] ++ pieces.flatten) = some (header, rest) := by
    rw [List.nil_append, h.content]
    exact hcut
  have hlength := length_cut hcut
  rw [show (crlf ++ crlf).length = 4 from rfl] at hlength
  rw [readRequest, readHeader_fill hcontent h.some (Nat.zero_le _)]
  by_cases hlimit : (fill (header.length + 4) [] pieces).1.length ≤ kMaxHeaderBytes
  · rw [if_pos hlimit, if_pos hlimit]
    -- the header is whole in what the first loop has read
    have hheader : header.length + 4 ≤ (fill (header.length + 4) [] pieces).1.length := by
      refine size_le_fill ?_
      rw [List.nil_append, h.content]
      omega
    obtain ⟨later, hlater⟩ := @fill_isPrefix _ (header.length + 4) [] pieces
    rw [List.nil_append, h.content] at hlater
    rw [← hlater] at hcut
    have hfirst := cut_of_append hcut hheader
    have hsome : ∀ piece ∈ (fill (header.length + 4) [] pieces).2, piece ≠ [] :=
      fun piece hpiece => h.some piece (fill_isSuffix.subset hpiece)
    simp only [Option.bind_eq_bind, Option.bind_some, hfirst]
    rw [if_neg (by omega)]
    cases hfields : parseHeaderBlock header with
    | none => rfl
    | some fields =>
      rw [Option.bind_some, Option.bind_some, readBody_fill hsome
        (Nat.le_trans hlimit (by decide)), fill_fill (Nat.le_add_right _ _)]
      split
      · next hbody =>
        rw [if_neg (by omega)]
      · rfl
  · rw [if_neg hlimit, if_neg hlimit]
    rfl

/-- What comes behind the body does not change the request. -/
theorem parseRequest_take {bytes header rest : Bytes} {fields : List (Bytes × Bytes) × ℕ} {n : ℕ}
    (hcut : cut (crlf ++ crlf) bytes = some (header, rest))
    (hfields : parseHeaderBlock header = some fields) (hn : header.length + 4 + fields.2 ≤ n)
    (hbytes : n ≤ bytes.length) : parseRequest (bytes.take n) = parseRequest bytes := by
  have hparts := cut_parts hcut
  rw [show crlf ++ crlf = [0x0D, 0x0A, 0x0D, 0x0A] from rfl] at hparts
  have htake : (bytes.take n).length = n := by
    rw [List.length_take]
    omega
  have hfirst : cut (crlf ++ crlf) (bytes.take n) = some (header, rest.take (n - (header.length + 4))) := by
    have hwhole : cut (crlf ++ crlf) (bytes.take n ++ bytes.drop n) = some (header, rest) := by
      rw [List.take_append_drop]
      exact hcut
    rw [cut_of_append hwhole (by rw [htake]; exact Nat.le_trans (Nat.le_add_right _ _) hn)]
    have hdrop : bytes.drop (header.length + 4) = rest := by
      rw [hparts, List.drop_append, Nat.add_sub_cancel_left, List.drop_eq_nil_of_le (Nat.le_add_right _ _)]
      rfl
    show some (header, (bytes.take n).drop (header.length + 4)) = _
    rw [List.drop_take, hdrop]
  -- the request line ends in the header
  obtain ⟨line, later, hline⟩ : ∃ line later, cut crlf header = some (line, later) := by
    rw [parseHeaderBlock] at hfields
    cases hheader : cut crlf header with
    | none =>
      rw [hheader] at hfields
      cases hfields
    | some parts => exact ⟨parts.1, parts.2, rfl⟩
  have hlonger : ∀ {text z}, cut (crlf ++ crlf) text = some (header, z) →
      ∃ z', cut crlf text = some (line, z') := by
    intro text z htext
    rw [cut_parts htext]
    exact ⟨_, cut_append hline _⟩
  obtain ⟨z, hz⟩ := hlonger hfirst
  obtain ⟨z', hz'⟩ := hlonger hcut
  have hlength := length_cut hcut
  rw [show (crlf ++ crlf).length = 4 from rfl] at hlength
  rw [parseRequest, parseRequest]
  simp only [Option.bind_eq_bind, hfirst, hcut, hz, hz', Option.bind_some, hfields]
  have hbody : (rest.take (n - (header.length + 4))).take fields.2 = rest.take fields.2 := by
    rw [List.take_take, Nat.min_eq_left (by omega)]
  have hroom : ¬ (rest.take (n - (header.length + 4))).length < fields.2 := by
    rw [List.length_take]
    omega
  have hrest : ¬ rest.length < fields.2 := by omega
  simp only [hroom, hrest, hbody, if_false]

/-! ### Independence -/

/-- Every cut of the bytes is read alike. -/
def ReadAlike (bytes : Bytes) : Prop :=
  ∀ pieces pieces', Arriving bytes pieces → Arriving bytes pieces' →
    ((readRequest pieces).isSome ↔ (readRequest pieces').isSome) ∧
      ∀ request request', readRequest pieces = some request → readRequest pieces' = some request' →
        parseRequest request = parseRequest request'

/-- A request that is accepted byte by byte leaves the limits room for the last piece of its header
and for the last piece of its body. -/
def LeavesRoom (bytes : Bytes) : Prop :=
  ∀ header rest fields contentLength, cut (crlf ++ crlf) bytes = some (header, rest) →
    parseHeaderBlock header = some (fields, contentLength) →
    header.length + 4 ≤ kMaxHeaderBytes → header.length + 4 + contentLength ≤ bytes.length →
    header.length + 4 + contentLength ≤ kMaxRequestBytes →
      min bytes.length (header.length + 4 + (kReceiveBytes - 1)) ≤ kMaxHeaderBytes ∧
        (contentLength = 0 ∨
          min bytes.length (header.length + 4 + contentLength + (kReceiveBytes - 1)) ≤
            kMaxRequestBytes)

theorem arriving_burst (bytes : Bytes) {start : ℕ} (h : start < bytes.length) :
    Arriving bytes (burst start kReceiveBytes bytes) := by
  have hpiece : ∀ piece ∈ burst start kReceiveBytes bytes,
      piece ≠ [] ∧ piece.length ≤ kReceiveBytes := by
    intro piece hpiece
    have hsingle : ∀ {content : Bytes}, piece ∈ singles content →
        piece ≠ [] ∧ piece.length ≤ kReceiveBytes := by
      intro content hmem
      have hone := mem_singles hmem
      exact ⟨List.ne_nil_of_length_pos (by omega), by rw [hone]; decide⟩
    obtain hmem | hmem := List.mem_append.mp hpiece
    · exact hsingle hmem
    obtain rfl | hmem := List.mem_cons.mp hmem
    · refine ⟨List.ne_nil_of_length_pos ?_, List.length_take_le _ _⟩
      rw [List.length_take, List.length_drop, kReceiveBytes]
      omega
    · exact hsingle hmem
  exact ⟨flatten_burst _ _ _, fun piece h => (hpiece piece h).1, fun piece h => (hpiece piece h).2⟩

theorem arriving_singles (bytes : Bytes) : Arriving bytes (singles bytes) := by
  refine ⟨flatten_singles bytes, fun piece hpiece => ?_, fun piece hpiece => ?_⟩
  · exact List.ne_nil_of_length_pos (by rw [mem_singles hpiece]; decide)
  · rw [mem_singles hpiece]
    decide

/-- What is read alike is read as the whole, and byte by byte if at all. -/
theorem reading_independent_iff (bytes : Bytes) : ReadAlike bytes ↔ LeavesRoom bytes := by
  constructor
  · intro halike header rest fields c hcut hfields hheader hbody hlimit
    have hlength : ∀ {n}, n ≤ bytes.length → (bytes.take n).length = n := by
      intro n hn
      rw [List.length_take]
      omega
    -- byte by byte the request is accepted, so it is in every other way
    have hsingle : (readRequest (singles bytes)).isSome = true := by
      rw [readRequest_fill hcut (arriving_singles bytes), fill_singles_nil (by omega),
        hlength (by omega), if_pos hheader, hfields, Option.bind_some, fill_singles_nil hbody,
        hlength hbody, if_pos ⟨Nat.le_refl _, hlimit⟩]
      rfl
    have hall : ∀ pieces, Arriving bytes pieces →
        (fill (header.length + 4) [] pieces).1.length ≤ kMaxHeaderBytes ∧
          (fill (header.length + 4 + c) [] pieces).1.length ≤ kMaxRequestBytes := by
      intro pieces hpieces
      have hsome := (halike _ _ (arriving_singles bytes) hpieces).1.mp hsingle
      rw [readRequest_fill hcut hpieces] at hsome
      split at hsome
      · next hfirst =>
        rw [hfields, Option.bind_some] at hsome
        split at hsome
        · next hsecond => exact ⟨hfirst, hsecond.2⟩
        · cases hsome
      · cases hsome
    have hreach : ∀ {n}, n < bytes.length →
        (fill (n + 1) [] (burst n kReceiveBytes bytes)).1.length =
          min bytes.length (n + 1 + (kReceiveBytes - 1)) := by
      intro n hn
      rw [fill_burst hn (by decide), List.length_take, kReceiveBytes]
      omega
    constructor
    · have hfirst := (hall _ (@arriving_burst bytes (header.length + 3) (by omega))).1
      rwa [show header.length + 4 = header.length + 3 + 1 from rfl, hreach (by omega)] at hfirst
    · by_cases hc : c = 0
      · exact .inl hc
      · have hsecond :=
          (hall _ (@arriving_burst bytes (header.length + 3 + c) (by omega))).2
        rw [show header.length + 4 + c = header.length + 3 + c + 1 by omega, hreach (by omega)]
          at hsecond
        exact .inr (by rwa [show header.length + 4 + c = header.length + 3 + c + 1 by omega])
  · intro hroom pieces pieces' hpieces hpieces'
    have hnever : (∀ {pieces}, Arriving bytes pieces → readRequest pieces = none) →
        ((readRequest pieces).isSome ↔ (readRequest pieces').isSome) ∧
          ∀ request request', readRequest pieces = some request →
            readRequest pieces' = some request' → parseRequest request = parseRequest request' := by
      intro hnone
      rw [hnone hpieces, hnone hpieces']
      exact ⟨Iff.rfl, nofun⟩
    cases hcut : cut (crlf ++ crlf) bytes with
    | none =>
      refine hnever fun {pieces} h => ?_
      rw [readRequest, readHeader_none (by rw [List.nil_append, h.content]; exact hcut)]
      rfl
    | some parts =>
      obtain ⟨header, rest⟩ := parts
      have hlength := length_cut hcut
      rw [show (crlf ++ crlf).length = 4 from rfl] at hlength
      have hbound : ∀ {n pieces}, n ≤ bytes.length → 0 < n → Arriving bytes pieces →
          n ≤ (fill n [] pieces).1.length ∧
            (fill n [] pieces).1.length ≤ min bytes.length (n + (kReceiveBytes - 1)) := by
        intro n pieces hn hpos h
        have hle := (@fill_isPrefix _ n [] pieces).length_le
        have hge := @size_le_fill _ n [] pieces
        rw [List.nil_append, h.content] at hle hge
        have hfull := hge hn
        obtain hempty | hlt := @length_fill_le _ n _ [] pieces h.size
        · rw [hempty, List.length_nil] at hfull
          omega
        · rw [kReceiveBytes] at hlt ⊢
          omega
      by_cases hheader : header.length + 4 ≤ kMaxHeaderBytes
      · cases hfields : parseHeaderBlock header with
        | none =>
          refine hnever fun {pieces} h => ?_
          rw [readRequest_fill hcut h, hfields]
          exact ite_self _
        | some fields =>
          obtain ⟨fields, c⟩ := fields
          by_cases hfits : header.length + 4 + c ≤ bytes.length ∧
              header.length + 4 + c ≤ kMaxRequestBytes
          · obtain ⟨hfirst, hsecond⟩ := hroom header rest fields c hcut hfields hheader hfits.1 hfits.2
            have hread : ∀ {pieces}, Arriving bytes pieces → ∃ n, header.length + 4 + c ≤ n ∧
                n ≤ bytes.length ∧ readRequest pieces = some (bytes.take n) := by
              intro pieces h
              have hlow := @hbound (header.length + 4) pieces (by omega) (Nat.succ_pos _) h
              have hhigh := hbound hfits.1 (by omega) h
              have hlimit : (fill (header.length + 4 + c) [] pieces).1.length ≤ kMaxRequestBytes := by
                obtain rfl | hsecond := hsecond
                · exact Nat.le_trans hlow.2 (Nat.le_trans hfirst (by decide))
                · exact Nat.le_trans hhigh.2 hsecond
              have hinit := @fill_isPrefix _ (header.length + 4 + c) [] pieces
              rw [List.nil_append, h.content] at hinit
              refine ⟨_, hhigh.1, hinit.length_le, ?_⟩
              rw [readRequest_fill hcut h, if_pos (Nat.le_trans hlow.2 hfirst), hfields,
                Option.bind_some, if_pos ⟨hhigh.1, hlimit⟩]
              exact congrArg some (List.prefix_iff_eq_take.mp hinit)
            obtain ⟨n, hn, hnle, hrequest⟩ := hread hpieces
            obtain ⟨n', hn', hnle', hrequest'⟩ := hread hpieces'
            rw [hrequest, hrequest']
            refine ⟨Iff.rfl, fun request request' heq heq' => ?_⟩
            obtain rfl := Option.some.inj heq
            obtain rfl := Option.some.inj heq'
            rw [parseRequest_take hcut hfields hn hnle, parseRequest_take hcut hfields hn' hnle']
          · -- there is no such body, or no place for it
            refine hnever fun {pieces} h => ?_
            have hinit := @fill_isPrefix _ (header.length + 4 + c) [] pieces
            rw [List.nil_append, h.content] at hinit
            have hle := hinit.length_le
            rw [readRequest_fill hcut h, hfields, Option.bind_some, if_neg (c := _ ∧ _), ite_self]
            rintro ⟨hbody, hlimit⟩
            exact hfits ⟨Nat.le_trans hbody hle, Nat.le_trans hbody hlimit⟩
      · refine hnever fun {pieces} h => ?_
        have hlow := @hbound (header.length + 4) pieces (by omega) (Nat.succ_pos _) h
        rw [readRequest_fill hcut h, if_neg (fun hle => hheader (Nat.le_trans hlow.1 hle))]

/-! ### A request that depends on its pieces -/

/-- A request line of 16361 bytes. -/
def longLine : Bytes :=
  ascii "POST /" ++ List.replicate 16346 'a'.toUInt8 ++ ascii " HTTP/1.1"

def longHeader : Bytes := longLine ++ (crlf ++ ascii "Content-Length: 2")

/-- Its header ends exactly at the limit. -/
def longRequest : Bytes := longHeader ++ (crlf ++ crlf ++ ascii "ok")

theorem longLine_plain : 0x0D ∉ longLine := by
  have hends : 0x0D ∉ ascii "POST /" ∧ 0x0D ∉ ascii " HTTP/1.1" := by decide
  rw [longLine, List.mem_append, List.mem_append, not_or, not_or]
  exact ⟨⟨hends.1, fun hmem => absurd (List.eq_of_mem_replicate hmem) (by decide)⟩, hends.2⟩

theorem longHeader_length : longHeader.length = 16380 := by
  rw [longHeader, longLine, List.length_append, List.length_append, List.length_append,
    List.length_replicate]
  rfl

theorem longRequest_cut : cut (crlf ++ crlf) longRequest = some (longHeader, ascii "ok") := by
  have htail : cut (crlf ++ crlf) ((crlf ++ ascii "Content-Length: 2") ++ (crlf ++ crlf ++ ascii "ok")) =
      some (crlf ++ ascii "Content-Length: 2", ascii "ok") := by decide
  rw [longRequest, longHeader, List.append_assoc]
  exact (cut_skip longLine_plain).trans (congrArg _ htail)

theorem longHeader_fields : ∃ fields, parseHeaderBlock longHeader = some (fields, 2) := by
  have hline : cut crlf longHeader = some (longLine, ascii "Content-Length: 2") := by
    have hend : cut crlf (crlf ++ ascii "Content-Length: 2") =
        some ([], ascii "Content-Length: 2") := by decide
    refine (cut_skip longLine_plain).trans ((congrArg _ hend).trans ?_)
    exact congrArg (fun line => some (line, _)) (List.append_nil longLine)
  refine ⟨[(ascii "content-length", ascii "2")], ?_⟩
  rw [parseHeaderBlock, hline]
  decide

/-- The same bytes are accepted in pieces of one, and not when the end of the header comes with the
body. -/
theorem longRequest_torn : ∃ pieces pieces', Arriving longRequest pieces ∧
    Arriving longRequest pieces' ∧ (readRequest pieces).isSome = true ∧
      readRequest pieces' = none := by
  have hlength : longRequest.length = 16386 := by
    rw [longRequest, List.length_append, longHeader_length]
    rfl
  have htake : ∀ n, (longRequest.take n).length = min n 16386 := by
    intro n
    rw [List.length_take, hlength]
  obtain ⟨fields, hfields⟩ := longHeader_fields
  have hcut := longRequest_cut
  have hburst : 16383 < longRequest.length := by omega
  refine ⟨_, _, arriving_singles _, arriving_burst _ hburst, ?_, ?_⟩
  · rw [readRequest_fill hcut (arriving_singles _), longHeader_length,
      fill_singles_nil (by omega), htake, if_pos (by decide), hfields, Option.bind_some]
    rw [show 16380 + 4 + (fields, 2).2 = 16386 from rfl, fill_singles_nil (by omega), htake,
      if_pos (by decide)]
    rfl
  · rw [readRequest_fill hcut (arriving_burst _ hburst), longHeader_length,
      fill_burst hburst (by decide), htake, if_neg (by decide)]

end Uhf.Web
