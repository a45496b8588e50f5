/-
How the reading of a response ends, by the bytes that were delivered.

`deliveredBytes` goes over the clock readings and reads of a trace and collects what arrived in
time; `readResponse` is then a function of these bytes alone.

* `readExact_took` — what one stretch of reads has taken;
* `response_classified` — which bytes make which result, and that no read goes past the frame.
-/
import UhfGateway.Acquisition.Exchange

namespace Uhf.Acquisition

open Domain Effects

/-! ### Delivered bytes -/

/-- The bytes of the successful reads that were begun before the deadline, up to the first that
was not or that brought nothing. -/
def deliveredBytes (deadline : Nanoseconds) : Trace pollCalls → Bytes
  | ⟨.now, (begun : Nanoseconds)⟩ :: ⟨.readSome _ _, (answer : ReadSome _)⟩ :: trace =>
    if begun < deadline ∧ answer.ok = true ∧ answer.bytes ≠ [] then
      answer.bytes ++ deliveredBytes deadline trace
    else []
  | _ => []

/-- Every read goes to a place in a buffer of `size` bytes behind what has been read before. -/
def StaysWithin (size : ℕ) : (offset : ℕ) → Trace pollCalls → Prop
  | offset, ⟨.readSome capacity _, (answer : ReadSome capacity)⟩ :: trace =>
    offset + capacity ≤ size ∧ StaysWithin size (offset + answer.bytes.length) trace
  | offset, _ :: trace => StaysWithin size offset trace
  | _, [] => True

section Delivered

variable {deadline begun : Nanoseconds} {timeout : Int} {capacity : ℕ} {answer : ReadSome capacity}
  {trace : Trace pollCalls}

theorem deliveredBytes_chunk (inTime : begun < deadline) (ok : answer.ok = true)
    (some : answer.bytes ≠ []) :
    deliveredBytes deadline (Did.now begun :: Did.readSome timeout answer :: trace) =
      answer.bytes ++ deliveredBytes deadline trace := if_pos ⟨inTime, ok, some⟩

theorem deliveredBytes_stop (h : ¬ (answer.ok = true ∧ answer.bytes ≠ [])) :
    deliveredBytes deadline (Did.now begun :: Did.readSome timeout answer :: trace) = [] :=
  if_neg fun hall => h hall.2

end Delivered

/-- What a stretch of reads has taken: when it has failed, nothing comes behind it. -/
structure Took (deadline : Nanoseconds) (size : ℕ) (trace : Trace pollCalls) (ok : Bool)
    (bytes : Bytes) : Prop where
  length : bytes.length ≤ size
  full : ok = true ↔ bytes.length = size
  delivered : ∀ rest, (ok = false → rest = []) →
    deliveredBytes deadline (trace ++ rest) = bytes ++ deliveredBytes deadline rest
  within : ∀ total offset rest, offset + size ≤ total → (ok = false → rest = []) →
    StaysWithin total (offset + bytes.length) rest → StaysWithin total offset (trace ++ rest)

theorem readExact_took {deadline : Nanoseconds} {size : ℕ} {trace : Trace pollCalls} {full : Bool}
    {bytes : Bytes} (h : (readExact deadline size).Exec trace (full, bytes)) :
    Took deadline size trace full bytes := by
  -- every chunk is nonempty, so the size goes down from read to read
  induction size using Nat.strongRecOn generalizing trace full bytes with
  | ind size ih =>
    rw [readExact] at h
    split at h
    · next hsize =>
      obtain ⟨rfl, hresult⟩ := Prog.exec_done.mp h
      obtain ⟨rfl, rfl⟩ := Prod.mk.inj hresult
      exact ⟨Nat.zero_le _, by simp [hsize], fun _ _ => rfl, fun _ _ _ _ _ hrest => hrest⟩
    next hsize =>
    obtain ⟨begun, trace, rfl, hclock⟩ := exec_readClock.mp h
    split at hclock
    · obtain ⟨rfl, hresult⟩ := Prog.exec_done.mp hclock
      obtain ⟨rfl, rfl⟩ := Prod.mk.inj hresult
      refine ⟨Nat.zero_le _, by simp [Ne.symm hsize], ?_, ?_⟩
      · intro rest hrest
        rw [hrest rfl]
        rfl
      · intro total offset rest _ hrest _
        rw [hrest rfl]
        trivial
    next htime =>
    obtain ⟨answer, trace, rfl, hread⟩ := exec_readSome.mp hclock
    -- a read that fails or brings nothing is the last one
    have hstop : trace = [] → full = false → bytes = [] →
        ¬ (answer.ok = true ∧ answer.bytes ≠ []) →
        Took deadline size (Did.now begun :: Did.readSome (readTimeout (deadline - begun)) answer ::
          trace) full bytes := by
      rintro rfl rfl rfl hnothing
      refine ⟨Nat.zero_le _, by simp [Ne.symm hsize], ?_, ?_⟩
      · intro rest hrest
        rw [hrest rfl]
        exact deliveredBytes_stop hnothing
      · intro total offset rest hroom hrest _
        rw [hrest rfl]
        exact ⟨hroom, trivial⟩
    split at hread
    · next hfailed =>
      obtain ⟨htrace, hresult⟩ := Prog.exec_done.mp hread
      obtain ⟨hfull, hbytes⟩ := Prod.mk.inj hresult
      exact hstop htrace hfull hbytes (by simp at hfailed; simp [hfailed])
    next hok =>
    split at hread
    · next hnone =>
      obtain ⟨htrace, hresult⟩ := Prog.exec_done.mp hread
      obtain ⟨hfull, hbytes⟩ := Prod.mk.inj hresult
      exact hstop htrace hfull hbytes (by simp [hnone])
    next hsome =>
    obtain ⟨reads, last, ⟨got, later⟩, rfl, hreads, hlast⟩ := Prog.exec_bind.mp hread
    obtain ⟨rfl, hresult⟩ := Prog.exec_done.mp hlast
    obtain ⟨rfl, rfl⟩ := Prod.mk.inj hresult
    have hpos := List.length_pos_iff.mpr hsome
    have hfits := answer.fits
    have htook := ih _ (by omega) hreads
    have hlength := htook.length
    rw [List.append_nil]
    refine ⟨?_, ?_, ?_, ?_⟩
    · show (answer.bytes ++ later).length ≤ size
      rw [List.length_append]
      omega
    · show full = true ↔ (answer.bytes ++ later).length = size
      rw [htook.full, List.length_append]
      omega
    · intro rest hrest
      show deliveredBytes deadline (Did.now begun :: Did.readSome _ answer :: (reads ++ rest)) = _
      rw [deliveredBytes_chunk (Int.not_le.mp htime) (by simpa using hok) hsome,
        htook.delivered rest hrest, List.append_assoc]
    · intro total offset rest hroom hrest hwithin
      refine ⟨hroom, htook.within total _ rest (by omega) hrest ?_⟩
      rw [List.length_append, ← Nat.add_assoc] at hwithin
      exact hwithin

/-! ### The four results -/

/-- The size of the buffer of a response. -/
def kResponseBytes : ℕ := 3 + 240 + 2

/-- The result that goes with the delivered bytes, for a request of `count` registers. -/
structure Classified (slaveId : UInt8) (count : ℕ) (bytes : Bytes) (result : ResponseResult) : Prop where
  complete : ∀ response, result = .complete response ↔
    response = bytes ∧ ValidResponse slaveId count bytes
  retryable : result = .retryableError ↔ RetryableResponse slaveId count bytes
  noResponse : result = .noResponse ↔ bytes = []
  fatal : result = .fatalError ↔ ¬ ValidResponse slaveId count bytes ∧
    ¬ RetryableResponse slaveId count bytes ∧ bytes ≠ []

/-- The three other classes have no bytes in common, and `fatalError` is what they leave. -/
theorem Classified.of_cases {slaveId : UInt8} {count : ℕ} {bytes : Bytes} {result : ResponseResult}
    (hcount : count ≠ 0)
    (h : (ValidResponse slaveId count bytes ∧ result = .complete bytes) ∨
      (RetryableResponse slaveId count bytes ∧ result = .retryableError) ∨
      (bytes = [] ∧ result = .noResponse) ∨
      (¬ ValidResponse slaveId count bytes ∧ ¬ RetryableResponse slaveId count bytes ∧ bytes ≠ [] ∧
        result = .fatalError)) : Classified slaveId count bytes result := by
  have hdisjoint : ValidResponse slaveId count bytes → ¬ RetryableResponse slaveId count bytes := by
    rintro hvalid ⟨-, ⟨hlength, -⟩ | ⟨-, -, -, hcrc⟩⟩
    · have hfull := hvalid.length
      omega
    · exact hcrc hvalid.crc
  have hvalid_some : ValidResponse slaveId count bytes → bytes ≠ [] := by
    rintro hvalid rfl
    have hfull := hvalid.length
    simp at hfull
    omega
  have hretryable_some : RetryableResponse slaveId count bytes → bytes ≠ [] := by
    rintro ⟨-, ⟨hlength, -⟩ | ⟨hlength, -⟩⟩ rfl
    · simp at hlength
    · simp at hlength
      omega
  rcases h with ⟨hvalid, rfl⟩ | ⟨hretryable, rfl⟩ | ⟨hempty, rfl⟩ | ⟨hvalid, hretryable, hsome, rfl⟩
  · refine ⟨fun response => ?_, ?_, ?_, ?_⟩
    · rw [ResponseResult.complete.injEq, eq_comm]
      exact (and_iff_left hvalid).symm
    · exact iff_of_false nofun (hdisjoint hvalid)
    · exact iff_of_false nofun (hvalid_some hvalid)
    · exact iff_of_false nofun fun h => h.1 hvalid
  · refine ⟨fun response => ?_, ?_, ?_, ?_⟩
    · exact iff_of_false nofun fun h => hdisjoint h.2 hretryable
    · exact iff_of_true rfl hretryable
    · exact iff_of_false nofun (hretryable_some hretryable)
    · exact iff_of_false nofun fun h => h.2.1 hretryable
  · refine ⟨fun response => ?_, ?_, ?_, ?_⟩
    · exact iff_of_false nofun fun h => hvalid_some h.2 hempty
    · exact iff_of_false nofun fun h => hretryable_some h hempty
    · exact iff_of_true rfl hempty
    · exact iff_of_false nofun fun h => h.2.2 hempty
  · refine ⟨fun response => ?_, ?_, ?_, ?_⟩
    · exact iff_of_false nofun fun h => hvalid h.2
    · exact iff_of_false nofun hretryable
    · exact iff_of_false nofun hsome
    · exact iff_of_true rfl ⟨hvalid, hretryable, hsome⟩

/-- What is delivered is no more than a frame, and every read stays within it. -/
structure WithinFrame (size : ℕ) (deadline : Nanoseconds) (trace : Trace pollCalls) : Prop where
  length : (deliveredBytes deadline trace).length ≤ size
  reads : StaysWithin size 0 trace

theorem planned_count {slaveId : UInt8} {request : ModbusReadRequest}
    (h : request ∈ pd1000RequestPlan slaveId) :
    request.registerCount.toNat ≠ 0 ∧ 5 + request.registerCount.toNat * 2 ≤ kResponseBytes := by
  obtain ⟨index, -, rfl⟩ := List.mem_map.mp h
  have hle := blockSize_le index
  have hpos : blockSize index ≠ 0 := by
    rw [blockSize]
    split <;> omega
  rw [plannedRequest_count, kResponseBytes]
  omega

/-- The result of reading the response to a planned request is that of the bytes delivered in time,
and no read goes past the end of the frame. -/
theorem response_classified {slaveId : UInt8} {request : ModbusReadRequest}
    (hplanned : request ∈ pd1000RequestPlan slaveId) (options : AcquisitionOptions)
    (deadline : Nanoseconds) {trace : Trace pollCalls} {result : ResponseResult}
    (h : (readResponse request options deadline).Exec trace result) :
    Classified options.slaveId request.registerCount.toNat (deliveredBytes deadline trace) result ∧
      WithinFrame (5 + request.registerCount.toNat * 2) deadline trace ∧
      5 + request.registerCount.toNat * 2 ≤ kResponseBytes := by
  obtain ⟨hcount, hbuffer⟩ := planned_count hplanned
  generalize hn : request.registerCount.toNat = n at hcount hbuffer ⊢
  obtain ⟨first, rest, ⟨ok, header⟩, rfl, hheader, hrest⟩ := Prog.exec_bind.mp h
  have htook := readExact_took hheader
  have hfirst := htook.length
  rw [kResponseHeaderBytes] at hfirst
  -- what ends behind the header, and what reads on to a body
  have halone : ∀ {result}, rest = [] →
      Classified options.slaveId n header result →
      Classified options.slaveId n (deliveredBytes deadline (first ++ rest)) result ∧
        WithinFrame (5 + n * 2) deadline (first ++ rest) ∧ 5 + n * 2 ≤ kResponseBytes := by
    rintro result rfl hclass
    have hdelivered : deliveredBytes deadline (first ++ []) = header := by
      rw [htook.delivered [] fun _ => rfl]
      exact List.append_nil header
    rw [hdelivered]
    refine ⟨hclass, ⟨by rw [hdelivered]; omega, ?_⟩, hbuffer⟩
    exact htook.within _ 0 [] (by rw [kResponseHeaderBytes]; omega) (fun _ => rfl) trivial
  have hbody : ∀ {result size full body}, ok = true → size ≤ 2 + n * 2 →
      Took deadline size rest full body →
      Classified options.slaveId n (header ++ body) result →
      Classified options.slaveId n (deliveredBytes deadline (first ++ rest)) result ∧
        WithinFrame (5 + n * 2) deadline (first ++ rest) ∧ 5 + n * 2 ≤ kResponseBytes := by
    rintro result size full body rfl hsize htaken hclass
    have hheaderLength := htook.full.mp rfl
    have hbodyLength := htaken.length
    have hread : true = false → rest = [] := fun h => absurd h (by decide)
    have hlast : deliveredBytes deadline rest = body := by
      rw [← List.append_nil rest, htaken.delivered [] fun _ => rfl]
      exact List.append_nil body
    have hdelivered : deliveredBytes deadline (first ++ rest) = header ++ body := by
      rw [htook.delivered rest hread, hlast]
    rw [hdelivered]
    rw [kResponseHeaderBytes] at hheaderLength
    refine ⟨hclass, ⟨by rw [hdelivered, List.length_append]; omega, ?_⟩, hbuffer⟩
    refine htook.within _ 0 rest (by rw [kResponseHeaderBytes]; omega) hread ?_
    have hwithin := htaken.within (5 + n * 2) (0 + header.length) [] (by omega) (fun _ => rfl) trivial
    rwa [List.append_nil] at hwithin
  have hfatal : ∀ {bytes : Bytes}, bytes.length ≠ 5 + n * 2 →
      (bytes.length = 5 → bytes.getD 1 0 ≠ kReadInputRegistersFunction ||| 0x80) → bytes ≠ [] →
      Classified options.slaveId n bytes .fatalError := by
    intro bytes hlength hexception hsome
    refine .of_cases hcount (.inr (.inr (.inr ⟨fun hv => hlength hv.length, ?_, hsome, rfl⟩)))
    rintro ⟨-, ⟨hfive, hfunction⟩ | ⟨hfull, -⟩⟩
    · exact hexception hfive hfunction
    · exact hlength hfull
  cases ok with
  | false =>
    have hshort : header.length ≠ 3 := fun heq => Bool.false_ne_true (htook.full.mpr heq)
    obtain ⟨hnil, rfl⟩ := Prog.exec_done.mp hrest
    refine halone hnil ?_
    by_cases hempty : header = []
    · subst hempty
      exact .of_cases hcount (.inr (.inr (.inl ⟨rfl, rfl⟩)))
    · have hnonempty : header.isEmpty = false := by simpa using hempty
      simp only [hnonempty]
      exact hfatal (by omega) (by omega) hempty
  | true =>
    have hthree : header.length = 3 := htook.full.mp rfl
    have hsome : header ≠ [] := by
      rintro rfl
      cases hthree
    have hat : ∀ (body : Bytes) (i : ℕ), i < 3 → (header ++ body).getD i 0 = header.getD i 0 :=
      fun body i hi => List.getD_append _ _ _ _ (by omega)
    have hpart : ∀ body : Bytes, header ++ body ≠ [] := fun body heq =>
      hsome (List.append_eq_nil_iff.mp heq).1
    rw [if_neg (by simp)] at hrest
    -- a foreign slave address is fatal: nothing more is read
    split at hrest
    · obtain ⟨hnil, rfl⟩ := Prog.exec_done.mp hrest
      exact halone hnil (hfatal (by omega) (by omega) hsome)
    next hslave =>
    rw [ne_eq, not_not] at hslave
    split at hrest
    · next hfunction =>
      obtain ⟨reads, last, ⟨full, body⟩, rfl, hreads, hlast⟩ := Prog.exec_bind.mp hrest
      have htaken := readExact_took hreads
      have hle := htaken.length
      cases full with
      | false =>
        obtain ⟨rfl, rfl⟩ := Prog.exec_done.mp hlast
        have hshort : body.length ≠ 2 := fun heq => Bool.false_ne_true (htaken.full.mpr heq)
        rw [List.append_nil] at hbody ⊢
        refine hbody rfl (by omega) htaken (hfatal ?_ ?_ (hpart body))
        · rw [List.length_append]
          omega
        · rw [List.length_append]
          omega
      | true =>
        obtain ⟨rfl, rfl⟩ := Prog.exec_done.mp hlast
        have htwo := htaken.full.mp rfl
        rw [List.append_nil] at hbody ⊢
        refine hbody rfl (by omega) htaken (.of_cases hcount (.inr (.inl ⟨⟨?_, .inl ⟨?_, ?_⟩⟩, rfl⟩)))
        · rw [hat body 0 (by omega), hslave]
        · rw [List.length_append]
          omega
        · rw [hat body 1 (by omega), hfunction]
    next hfunction =>
    split at hrest
    · obtain ⟨hnil, rfl⟩ := Prog.exec_done.mp hrest
      exact halone hnil (hfatal (by omega) (by omega) hsome)
    next hshape =>
    rw [not_or, ne_eq, ne_eq, not_not, not_not, hn] at hshape
    rw [hn] at hrest
    obtain ⟨reads, last, ⟨full, body⟩, rfl, hreads, hlast⟩ := Prog.exec_bind.mp hrest
    have htaken := readExact_took hreads
    have hle := htaken.length
    rw [kResponseCrcBytes] at hle htaken
    cases full with
    | false =>
      obtain ⟨rfl, rfl⟩ := Prog.exec_done.mp hlast
      have hshort : body.length ≠ n * 2 + 2 := fun heq => Bool.false_ne_true (htaken.full.mpr heq)
      rw [List.append_nil] at hbody ⊢
      refine hbody rfl (by omega) htaken (hfatal ?_ ?_ (hpart body))
      · rw [List.length_append]
        omega
      · intro _
        rw [hat body 1 (by omega)]
        exact hfunction
    | true =>
      have hfull := htaken.full.mp rfl
      have hlength : (header ++ body).length = 5 + n * 2 := by
        rw [List.length_append]
        omega
      rw [if_neg (by simp)] at hlast
      split at hlast
      · next hcrc =>
        obtain ⟨rfl, rfl⟩ := Prog.exec_done.mp hlast
        rw [List.append_nil] at hbody ⊢
        refine hbody rfl (by omega) htaken (.of_cases hcount (.inl ⟨⟨hlength, ?_, ?_, ?_, hcrc⟩, rfl⟩))
        · rw [hat body 0 (by omega), hslave]
        · rw [hat body 1 (by omega), hshape.1]
        · rw [hat body 2 (by omega), hshape.2]
      · next hcrc =>
        obtain ⟨rfl, rfl⟩ := Prog.exec_done.mp hlast
        rw [List.append_nil] at hbody ⊢
        refine hbody rfl (by omega) htaken
          (.of_cases hcount (.inr (.inl ⟨⟨?_, .inr ⟨hlength, ?_, ?_, hcrc⟩⟩, rfl⟩)))
        · rw [hat body 0 (by omega), hslave]
        · rw [hat body 1 (by omega), hshape.1]
        · rw [hat body 2 (by omega), hshape.2]

/-- An exception frame that comes in two reads. -/
theorem response_classified_exception : ∃ trace, deliveredBytes 1000000 trace = [1, 0x84, 2, 0, 0] ∧
    Classified 1 15 [1, 0x84, 2, 0, 0] .retryableError ∧ WithinFrame 35 1000000 trace := by
  have hheader := @Delivered.chunk 1000000 kResponseHeaderBytes 0 ⟨true, [1, 0x84, 2], by decide⟩ [] []
    (by decide) rfl (by decide) .all
  have hrest := @Delivered.chunk 1000000 2 0 ⟨true, [0, 0], by decide⟩ [] []
    (by decide) rfl (by decide) .all
  have hexec := @exec_readResponse_retryable (plannedRequest 1 0) {} 1000000 _ [1, 0x84, 2, 0, 0]
    ⟨rfl, .inl ⟨rfl, rfl⟩⟩ (arrives_of_delivered hheader hrest)
  have hplanned : plannedRequest 1 0 ∈ pd1000RequestPlan 1 :=
    List.mem_map.mpr ⟨0, List.mem_range.mpr (by decide), rfl⟩
  obtain ⟨hclass, hwithin, -⟩ := response_classified hplanned {} 1000000 hexec
  exact ⟨_, rfl, hclass, hwithin⟩

end Uhf.Acquisition
