/-
The serial slave on its line (`ModbusRtuServer::run`).

The server keeps the bytes it has received and not answered yet, and cuts them into
pieces of the size of a read request.  A read that brings nothing leaves them where they
are, so what decides whether a later request is understood is how many bytes the line has
delivered in all.

* `ModbusRtuServer.length_input` — how many bytes are waiting after a run;
* `ModbusRtuServer.resynchronises_iff` — a request after a silent interval is answered
  exactly when none are.
-/
import UhfGateway.Acquisition.Poll
import UhfGateway.Effects.Layer
import UhfGateway.Modbus.Mirror

namespace Uhf.Modbus

open Domain Acquisition Effects

/-! ### The loop -/

inductive LineCall
  | stopRequested
  /-- Up to 256 bytes within 100 ms. -/
  | readSome
  | sleepFor (duration : Nanoseconds)
  | writeAll (data : Bytes)

@[reducible] def lineCalls : Interface where
  Op := LineCall
  Answer
    | .stopRequested => Bool
    | .readSome => ReadSome 256
    | .sleepFor _ => Unit
    | .writeAll _ => Bool

/-- The line and the snapshot store. -/
abbrev rtuCalls : Interface := lineCalls.sum storeCalls

namespace ModbusRtuServer

variable (server : ModbusRtuServer)

/-- A response on its way, after the silence before it; none if it is empty. -/
def sendResponse (response : Bytes) (k : Prog rtuCalls Bytes) : Prog rtuCalls Bytes :=
  if response.isEmpty then k
  else
    .call (I := rtuCalls) (.inl (.sleepFor (microseconds 1750))) fun _ =>
      .call (I := rtuCalls) (.inl (.writeAll response)) fun _ => k

/-- The pieces of the input, one after the other; what is left is shorter than a request. -/
def serveInput (input : Bytes) : Prog rtuCalls Bytes :=
  if input.length < kReadRequestBytes then .done input
  else
    (server.handleRequest (input.take kReadRequestBytes)).inr >>= fun response =>
      sendResponse response (serveInput (input.drop kReadRequestBytes))
termination_by input.length
decreasing_by
  rw [List.length_drop]
  simp only [kReadRequestBytes] at *
  omega

/-- One round of `run` with the input kept so far; `none` when the server stops. -/
def round (input : Bytes) : Prog rtuCalls (Option Bytes) :=
  .call (I := rtuCalls) (.inl .stopRequested) fun (stop : Bool) =>
    if stop then .done none
    else
      .call (I := rtuCalls) (.inl .readSome) fun (read : ReadSome 256) =>
        if !read.ok then .done (some input)
        else if read.bytes.isEmpty then .done (some input)
        else if server.maxFrameBytes < (input ++ read.bytes).length then .done (some [])
        else server.serveInput (input ++ read.bytes) >>= fun rest => .done (some rest)

/-- The runs of the loop from some input on. -/
abbrev RunsFrom (input : Bytes) (trace : Trace rtuCalls) (r : Option Bytes) : Prop :=
  Prog.Loops server.round (fun _ _ => True) input trace r

end ModbusRtuServer

/-! ### What a run has done -/

/-- The bytes a read has put into the buffer of the server. -/
def readBytes : Act rtuCalls → Option Bytes
  | ⟨.inl .readSome, read⟩ => if read.ok then some read.bytes else none
  | _ => none

def writtenBytes : Act rtuCalls → Option Bytes
  | ⟨.inl (.writeAll data), _⟩ => some data
  | _ => none

def storeLook : Act rtuCalls → Option (Act storeCalls)
  | ⟨.inr o, view⟩ => some ⟨o, view⟩
  | _ => none

/-- What the line has delivered, read by read. -/
def chunks (trace : Trace rtuCalls) : List Bytes := trace.filterMap readBytes

/-- What the line has delivered in all. -/
def delivered (trace : Trace rtuCalls) : Bytes := (chunks trace).flatten

/-- What has been written to the line, response by response. -/
def written (trace : Trace rtuCalls) : List Bytes := trace.filterMap writtenBytes

/-- The looks at the snapshot store. -/
def looks (trace : Trace rtuCalls) : Trace storeCalls := trace.filterMap storeLook

/-- The bytes that wait after chunks of these sizes: what makes a whole number of pieces is
gone, and so is everything when it is more than a frame may have. -/
def leftover (maxFrameBytes : ℕ) (sizes : List ℕ) : ℕ :=
  sizes.foldl (fun waiting size =>
    if maxFrameBytes < waiting + size then 0 else (waiting + size) % kReadRequestBytes) 0

/-- All that was written is the response of `handle_request` to this request. -/
def Answered (server : ModbusRtuServer) (request : Bytes) (trace : Trace rtuCalls) : Prop :=
  ∃ response, (server.handleRequest request).Exec (looks trace) response ∧
    written trace = [response]

/-- The bytes of a request of the right size with correct CRC for this server. -/
structure RequestFor (server : ModbusRtuServer) (request : Bytes) : Prop where
  size : request.length = kReadRequestBytes
  crc : CrcMatches request
  unit : request.getD 0 0 = server.unitId

section Acts

variable {first rest : Trace rtuCalls}

@[simp] theorem chunks_append : chunks (first ++ rest) = chunks first ++ chunks rest :=
  List.filterMap_append

@[simp] theorem written_append : written (first ++ rest) = written first ++ written rest :=
  List.filterMap_append

@[simp] theorem looks_append : looks (first ++ rest) = looks first ++ looks rest :=
  List.filterMap_append

/-- The acts of a handler: nothing but looks at the store. -/
@[simp] theorem looks_inr (acts : Trace storeCalls) :
    looks (acts.map Act.inr : Trace rtuCalls) = acts := by
  rw [looks, List.filterMap_map]
  exact List.filterMap_some

@[simp] theorem written_inr (acts : Trace storeCalls) :
    written (acts.map Act.inr : Trace rtuCalls) = [] := by
  rw [written, List.filterMap_map, List.filterMap_eq_nil_iff]
  exact fun _ _ => rfl

@[simp] theorem chunks_inr (acts : Trace storeCalls) :
    chunks (acts.map Act.inr : Trace rtuCalls) = [] := by
  rw [chunks, List.filterMap_map, List.filterMap_eq_nil_iff]
  exact fun _ _ => rfl

@[simp] theorem delivered_append : delivered (first ++ rest) = delivered first ++ delivered rest := by
  rw [delivered, chunks_append, List.flatten_append]
  rfl

theorem Answered.append {server : ModbusRtuServer} {request : Bytes}
    {trace further : Trace rtuCalls}
    (h : Answered server request trace) (hlooks : looks further = [])
    (hwritten : written further = []) : Answered server request (trace ++ further) := by
  obtain ⟨response, hresponse, hone⟩ := h
  refine ⟨response, ?_, ?_⟩
  · rw [looks_append, hlooks, List.append_nil]
    exact hresponse
  · rw [written_append, hwritten, List.append_nil, hone]

end Acts

/-! ### One round -/

namespace ModbusRtuServer

variable {server : ModbusRtuServer}

theorem exec_sendResponse {response r : Bytes} {k : Prog rtuCalls Bytes} {trace : Trace rtuCalls}
    (h : (sendResponse response k).Exec trace r) :
    ∃ rest, k.Exec rest r ∧ chunks trace = chunks rest ∧ looks trace = looks rest ∧
      written trace = if response.isEmpty then written rest else response :: written rest := by
  rw [sendResponse] at h
  split at h
  · next hempty => exact ⟨trace, h, rfl, rfl, (if_pos hempty).symm⟩
  · next hfull =>
    obtain ⟨_, _, rfl, hwrite⟩ := Prog.exec_call.mp h
    obtain ⟨_, rest, rfl, hrest⟩ := Prog.exec_call.mp hwrite
    exact ⟨rest, hrest, rfl, rfl, (if_neg hfull).symm⟩

/-- One piece of the input: the handler, its response and the rest of the input. -/
theorem exec_serveInput {input r : Bytes} {trace : Trace rtuCalls}
    (hsize : kReadRequestBytes ≤ input.length) (h : (server.serveInput input).Exec trace r) :
    ∃ views response rest,
      (server.handleRequest (input.take kReadRequestBytes)).Exec views response ∧
      (server.serveInput (input.drop kReadRequestBytes)).Exec rest r ∧
      chunks trace = chunks rest ∧ looks trace = views ++ looks rest ∧
      written trace = if response.isEmpty then written rest else response :: written rest := by
  rw [serveInput, if_neg (Nat.not_lt.mpr hsize)] at h
  obtain ⟨first, tail, response, rfl, hfirst, htail⟩ := Prog.exec_bind.mp h
  obtain ⟨views, hviews, rfl⟩ := Prog.exec_inr.mp hfirst
  obtain ⟨rest, hrest, hchunks, hlooks, hwritten⟩ := exec_sendResponse htail
  refine ⟨views, response, rest, hviews, hrest, ?_, ?_, ?_⟩
  · rw [chunks_append, chunks_inr, List.nil_append, hchunks]
  · rw [looks_append, looks_inr, hlooks]
  · rw [written_append, written_inr, List.nil_append, hwritten]

theorem exec_serveInput_short {input r : Bytes} {trace : Trace rtuCalls}
    (hsize : input.length < kReadRequestBytes) (h : (server.serveInput input).Exec trace r) :
    trace = [] ∧ r = input := by
  rw [serveInput, if_pos hsize] at h
  exact Prog.exec_done.mp h

/-- What is left is what does not make a whole piece. -/
theorem length_serveInput {input r : Bytes} {trace : Trace rtuCalls}
    (h : (server.serveInput input).Exec trace r) :
    r.length = input.length % kReadRequestBytes ∧ chunks trace = [] := by
  induction hlen : input.length using Nat.strongRecOn generalizing input trace with
  | ind length ih =>
    by_cases hsize : input.length < kReadRequestBytes
    · obtain ⟨rfl, rfl⟩ := exec_serveInput_short hsize h
      exact ⟨by rw [← hlen, Nat.mod_eq_of_lt hsize], rfl⟩
    · have hle := Nat.not_lt.mp hsize
      obtain ⟨_, _, rest, _, hrest, hchunks, _, _⟩ := exec_serveInput hle h
      have hdrop : (input.drop kReadRequestBytes).length = length - kReadRequestBytes := by
        rw [List.length_drop, hlen]
      have hless : length - kReadRequestBytes < length := by
        have hpos : 0 < kReadRequestBytes := by decide
        omega
      obtain ⟨hlength, hnil⟩ := ih _ hless hrest hdrop
      rw [hlength, hchunks, hnil, ← Nat.mod_eq_sub_mod (by omega)]
      exact ⟨rfl, rfl⟩

/-- What a round can do: stop, read nothing, drop everything or serve the input. -/
inductive Round (server : ModbusRtuServer) (input : Bytes) :
    Trace rtuCalls → Option Bytes → Prop
  | idle {trace r} (hr : r = none ∨ r = some input) (hchunks : chunks trace = [] ∨ chunks trace = [[]])
      (hlooks : looks trace = []) (hwritten : written trace = []) : Round server input trace r
  | dropped {trace bytes} (hchunks : chunks trace = [bytes])
      (hlong : server.maxFrameBytes < (input ++ bytes).length)
      (hlooks : looks trace = []) (hwritten : written trace = []) :
      Round server input trace (some [])
  | served {trace bytes tail rest} (hchunks : chunks trace = [bytes])
      (hfits : (input ++ bytes).length ≤ server.maxFrameBytes)
      (hserve : (server.serveInput (input ++ bytes)).Exec tail rest)
      (hlooks : looks trace = looks tail) (hwritten : written trace = written tail) :
      Round server input trace (some rest)

theorem round_cases {input : Bytes} {trace : Trace rtuCalls} {r : Option Bytes}
    (h : (server.round input).Exec trace r) : Round server input trace r := by
  obtain ⟨stop, rest, rfl, hstop⟩ := Prog.exec_call.mp h
  cases stop with
  | true =>
    obtain ⟨rfl, rfl⟩ := Prog.exec_done.mp hstop
    exact .idle (.inl rfl) (.inl rfl) rfl rfl
  | false =>
    obtain ⟨⟨ok, bytes, fits⟩, rest, rfl, hread⟩ := Prog.exec_call.mp hstop
    cases ok with
    | false =>
      obtain ⟨rfl, rfl⟩ := Prog.exec_done.mp hread
      exact .idle (.inr rfl) (.inl rfl) rfl rfl
    | true =>
      simp only [Bool.not_true, Bool.false_eq_true, if_false] at hread
      split at hread
      · next hempty =>
        obtain ⟨rfl, rfl⟩ := Prog.exec_done.mp hread
        obtain rfl := List.isEmpty_iff.mp hempty
        exact .idle (.inr rfl) (.inr rfl) rfl rfl
      split at hread
      · next hlong =>
        obtain ⟨rfl, rfl⟩ := Prog.exec_done.mp hread
        exact .dropped rfl hlong rfl rfl
      · next hfits =>
        obtain ⟨tail, last, left, rfl, htail, hlast⟩ := Prog.exec_bind.mp hread
        obtain ⟨rfl, rfl⟩ := Prog.exec_done.mp hlast
        have hnone := (length_serveInput htail).2
        refine @Round.served _ _ _ bytes tail _ ?_ (Nat.not_lt.mp hfits) htail ?_ ?_
        · rw [List.append_nil]
          show bytes :: chunks tail = [bytes]
          rw [hnone]
        · rw [List.append_nil]
          rfl
        · rw [List.append_nil]
          rfl

/-! ### How many bytes wait -/

theorem leftover_append (maxFrameBytes : ℕ) (sizes : List ℕ) (size : ℕ) :
    leftover maxFrameBytes (sizes ++ [size]) =
      if maxFrameBytes < leftover maxFrameBytes sizes + size then 0
      else (leftover maxFrameBytes sizes + size) % kReadRequestBytes := by
  rw [leftover, List.foldl_append]
  rfl

theorem length_input {trace : Trace rtuCalls} {input : Bytes}
    (h : server.RunsFrom [] trace (some input)) :
    input.length = leftover server.maxFrameBytes ((chunks trace).map List.length) ∧
      input.length < kReadRequestBytes := by
  refine Prog.Loops.invariant (fun trace r => ∀ input, r = some input →
    input.length = leftover server.maxFrameBytes ((chunks trace).map List.length) ∧
      input.length < kReadRequestBytes) ?_ ?_ h input rfl
  · rintro _ ⟨⟩
    exact ⟨rfl, by decide⟩
  · intro trace further s r ih hround _ input hr
    subst hr
    obtain ⟨hlength, hless⟩ := ih s rfl
    have hfits := server.maxFrameBytes_le
    rw [chunks_append, List.map_append]
    cases round_cases hround with
    | idle hr hchunks _ _ =>
      obtain rfl : input = s := by simpa using hr
      refine ⟨?_, hless⟩
      rcases hchunks with hchunks | hchunks
      · rw [hchunks, List.map_nil, List.append_nil, hlength]
      · rw [hchunks, List.map_singleton, List.length_nil, leftover_append, ← hlength,
          Nat.add_zero, if_neg (by simp only [kReadRequestBytes] at hless; omega),
          Nat.mod_eq_of_lt hless]
    | dropped hchunks hlong _ _ =>
      rw [List.length_append] at hlong
      rw [hchunks, List.map_singleton, leftover_append, ← hlength, if_pos hlong]
      exact ⟨rfl, by decide⟩
    | served hchunks hle hserve _ _ =>
      rw [List.length_append] at hle
      rw [hchunks, List.map_singleton, leftover_append, ← hlength, if_neg (Nat.not_lt.mpr hle),
        (length_serveInput hserve).1, List.length_append]
      exact ⟨rfl, Nat.mod_lt _ (by decide)⟩

/-! ### Requests in step with the pieces -/

/-- A frame that begins with another unit is not answered. -/
theorem handleRequest_foreign {request : Bytes} (h : request.getD 0 0 ≠ server.unitId) :
    server.handleRequest request = .done [] := by
  rw [handleRequest, if_pos h, ite_self]

/-- What is answered names the unit and the function of the request. -/
theorem handleRequest_head {request response : Bytes} {views : Trace storeCalls}
    (h : (server.handleRequest request).Exec views response) :
    (response = [] ∧ ¬ RequestFor server request) ∨
      ∃ function rest, response = server.unitId :: function :: rest ∧
        function &&& 0x7F = request.getD 1 0 &&& 0x7F := by
  have hmarked : ∀ function : UInt8, (function ||| 0x80) &&& 0x7F = function &&& 0x7F := by
    intro function
    apply UInt8.toNat.inj
    rw [UInt8.toNat_and, UInt8.toNat_or, UInt8.toNat_and, Nat.and_or_distrib_right]
    exact Nat.or_zero _
  rw [handleRequest] at h
  split at h
  · next hshape =>
    refine .inl ⟨(Prog.exec_done.mp h).2, fun hfor => ?_⟩
    have hfits := server.maxFrameBytes_le
    have hsize : request.length = 8 := hfor.size
    rcases hshape with hshort | hlong | hcrc
    · exact absurd hshort (by rw [hfor.size]; exact Nat.lt_irrefl _)
    · omega
    · exact hcrc hfor.crc
  split at h
  · next hunit => exact .inl ⟨(Prog.exec_done.mp h).2, fun hfor => hunit hfor.unit⟩
  split at h
  · exact .inr ⟨_, _, (Prog.exec_done.mp h).2, hmarked _⟩
  simp only at h
  split at h
  · exact .inr ⟨_, _, (Prog.exec_done.mp h).2, hmarked _⟩
  split at h
  · exact .inr ⟨_, _, (Prog.exec_done.mp h).2, hmarked _⟩
  split at h
  · exact .inr ⟨_, _, (Prog.exec_done.mp h).2, hmarked _⟩
  obtain ⟨⟨snapshot, status⟩, rest, rfl, hview⟩ := exec_servingView.mp h
  cases snapshot with
  | none => exact .inr ⟨_, _, (Prog.exec_done.mp hview).2, hmarked _⟩
  | some snapshot => exact .inr ⟨_, _, (Prog.exec_done.mp hview).2, rfl⟩

/-- A request on its way: it waits in the input until its last byte is there, and then
it has been answered. -/
inductive Hears (server : ModbusRtuServer) (request : Bytes) (trace : Trace rtuCalls) :
    Option Bytes → Prop
  | waiting {r : Option Bytes} (hshort : (delivered trace).length < kReadRequestBytes)
      (hr : r = none ∨ r = some (delivered trace)) (hlooks : looks trace = [])
      (hwritten : written trace = []) : Hears server request trace r
  | answered {r : Option Bytes} (hwhole : delivered trace = request)
      (hr : r = none ∨ r = some []) (h : Answered server request trace) :
      Hears server request trace r

/-- A round without bytes changes nothing. -/
theorem Hears.idle {request s : Bytes} {trace further : Trace rtuCalls} {r : Option Bytes}
    (h : Hears server request trace (some s)) (hr : r = none ∨ r = some s)
    (hdelivered : delivered further = []) (hlooks : looks further = [])
    (hwritten : written further = []) : Hears server request (trace ++ further) r := by
  have hsame : delivered (trace ++ further) = delivered trace := by
    rw [delivered_append, hdelivered, List.append_nil]
  cases h with
  | waiting hshort hs hlooks' hwritten' =>
    obtain rfl : s = delivered trace := by simpa using hs
    refine .waiting ?_ ?_ ?_ ?_
    · rw [hsame]
      exact hshort
    · rw [hsame]
      exact hr
    · rw [looks_append, hlooks, hlooks', List.append_nil]
    · rw [written_append, hwritten, hwritten', List.append_nil]
  | answered hwhole hs h =>
    obtain rfl : s = [] := by simpa using hs
    exact .answered (hsame.trans hwhole) hr (h.append hlooks hwritten)

theorem Hears.round {request s : Bytes} (hfor : RequestFor server request)
    {trace further : Trace rtuCalls} {r : Option Bytes} (h : Hears server request trace (some s))
    (hround : (server.round s).Exec further r)
    (hbegins : delivered (trace ++ further) <+: request) :
    Hears server request (trace ++ further) r := by
  have hsize : request.length = 8 := hfor.size
  have hfits := server.maxFrameBytes_le
  have hlength : (delivered (trace ++ further)).length ≤ 8 := hsize ▸ hbegins.length_le
  -- the input and the new bytes together are never more than the request
  have hinput : ∀ bytes, chunks further = [bytes] → (s ++ bytes).length ≤ 8 ∧
      (delivered trace = request → bytes = [] ∧ s = []) ∧
      ((delivered trace).length < kReadRequestBytes → s ++ bytes = delivered (trace ++ further)) := by
    intro bytes hbytes
    have hnew : delivered further = bytes := by
      rw [delivered, hbytes, List.flatten_singleton]
    rw [delivered_append, hnew] at hlength hbegins ⊢
    rw [List.length_append] at hlength
    cases h with
    | waiting hshort hs _ _ =>
      obtain rfl : s = delivered trace := by simpa using hs
      refine ⟨by rw [List.length_append]; exact hlength, ?_, fun _ => rfl⟩
      intro hwhole
      rw [hwhole, hsize] at hshort
      exact absurd hshort (by decide)
    | answered hwhole hs _ =>
      obtain rfl : s = [] := by simpa using hs
      have hnone : bytes = [] := by
        rw [hwhole, hsize] at hlength
        exact List.eq_nil_of_length_eq_zero (by omega)
      refine ⟨by rw [hnone]; decide, fun _ => ⟨hnone, rfl⟩, ?_⟩
      intro hshort
      rw [hwhole, hsize] at hshort
      exact absurd hshort (by decide)
  cases round_cases hround with
  | idle hr hchunks hlooks hwritten =>
    refine h.idle hr ?_ hlooks hwritten
    rcases hchunks with hchunks | hchunks <;> rw [delivered, hchunks] <;> rfl
  | dropped hchunks hlong _ _ =>
    have hle := (hinput _ hchunks).1
    omega
  | @served bytes tail rest hchunks _ hserve hlooks hwritten =>
    obtain ⟨-, hagain, hinput⟩ := hinput bytes hchunks
    cases h with
    | waiting hshort hs hlooks' hwritten' =>
      rw [hinput hshort] at hserve
      by_cases hwhole : (delivered (trace ++ further)).length < kReadRequestBytes
      · obtain ⟨rfl, rfl⟩ := exec_serveInput_short hwhole hserve
        refine .waiting hwhole (.inr rfl) ?_ ?_
        · rw [looks_append, hlooks, hlooks']
          rfl
        · rw [written_append, hwritten, hwritten']
          rfl
      · have heq : delivered (trace ++ further) = request :=
          hbegins.eq_of_length (by simp only [kReadRequestBytes] at hwhole; omega)
        have htake : request.take kReadRequestBytes = request :=
          List.take_of_length_le (Nat.le_of_eq hsize)
        have hdrop : request.drop kReadRequestBytes = [] :=
          List.drop_of_length_le (Nat.le_of_eq hsize)
        rw [heq] at hserve
        obtain ⟨views, response, last, hresponse, hlast, -, hviews, hsent⟩ :=
          exec_serveInput (Nat.le_of_eq hfor.size.symm) hserve
        rw [htake] at hresponse
        rw [hdrop] at hlast
        obtain ⟨rfl, rfl⟩ := exec_serveInput_short (by decide) hlast
        have hfull : response.isEmpty = false := by
          obtain ⟨-, hnot⟩ | ⟨_, _, rfl, -⟩ := handleRequest_head hresponse
          · exact absurd hfor hnot
          · rfl
        refine .answered heq (.inr rfl) ⟨response, ?_, ?_⟩
        · rw [looks_append, hlooks', hlooks, hviews, List.nil_append]
          exact (List.append_nil views).symm ▸ hresponse
        · rw [written_append, hwritten', hwritten, hsent, hfull]
          rfl
    | answered hwhole hs h =>
      obtain ⟨rfl, rfl⟩ := hagain hwhole
      obtain ⟨rfl, rfl⟩ := exec_serveInput_short (by decide) hserve
      refine .answered ?_ (.inr rfl) (h.append hlooks hwritten)
      have hnone : delivered further = [] := by
        rw [delivered, hchunks]
        rfl
      rw [delivered_append, hnone, List.append_nil, hwhole]

/-- From an empty input on, a request is answered once its last byte is there. -/
theorem answered_of_aligned {request : Bytes} (hfor : RequestFor server request)
    {trace : Trace rtuCalls} {r : Option Bytes} (h : server.RunsFrom [] trace r)
    (hdelivered : delivered trace = request) : Answered server request trace := by
  have hears := Prog.Loops.invariant
    (fun trace r => delivered trace <+: request → Hears server request trace r)
    (fun _ => .waiting (by decide) (.inr rfl) rfl rfl)
    (fun trace further s r ih hround _ hbegins => by
      have hbefore : delivered trace <+: request := by
        rw [delivered_append] at hbegins
        exact (List.prefix_append _ _).trans hbegins
      exact (ih hbefore).round hfor hround hbegins) h
  cases hears (hdelivered ▸ List.prefix_rfl) with
  | waiting hshort =>
    rw [hdelivered, hfor.size] at hshort
    exact absurd hshort (Nat.lt_irrefl _)
  | answered _ _ h => exact h

/-! ### Requests out of step -/

/-- A read can bring any bytes that fit into the buffer, whatever waits. -/
theorem exists_round (server : ModbusRtuServer) (input : Bytes) {bytes : Bytes}
    (hbytes : bytes ≠ []) (hfits : bytes.length ≤ 256) :
    ∃ trace r, (server.round input).Exec trace r ∧ chunks trace = [bytes] := by
  have hanswer : ∀ o, Nonempty (rtuCalls.Answer o) := by
    rintro ((_ | _ | _ | _) | _)
    · exact ⟨(true : Bool)⟩
    · exact ⟨(⟨true, [], by decide⟩ : ReadSome 256)⟩
    · exact ⟨()⟩
    · exact ⟨(true : Bool)⟩
    · exact ⟨(⟨none, {}⟩ : ServingView)⟩
  have hfull : bytes.isEmpty = false := List.isEmpty_eq_false_iff.mpr hbytes
  obtain ⟨tail, rest, htail⟩ := Prog.exists_exec hanswer
    (if server.maxFrameBytes < (input ++ bytes).length then .done (some [])
      else server.serveInput (input ++ bytes) >>= fun rest => .done (some rest))
  have hround : (server.round input).Exec (⟨.inl .stopRequested, false⟩ ::
      ⟨.inl .readSome, (⟨true, bytes, hfits⟩ : ReadSome 256)⟩ :: tail) rest := by
    refine Prog.exec_call.mpr ⟨false, _, rfl, Prog.exec_call.mpr ⟨_, _, rfl, ?_⟩⟩
    simp only [Bool.not_true, Bool.false_eq_true, if_false, hfull]
    exact htail
  refine ⟨_, rest, hround, ?_⟩
  show bytes :: chunks tail = [bytes]
  split at htail
  · obtain ⟨rfl, -⟩ := Prog.exec_done.mp htail
    rfl
  · obtain ⟨first, last, left, rfl, hfirst, hlast⟩ := Prog.exec_bind.mp htail
    obtain ⟨rfl, -⟩ := Prog.exec_done.mp hlast
    rw [List.append_nil, (length_serveInput hfirst).2]

/-- A request behind bytes that wait is cut in two; then the first piece would have to be
answered in its place, with the function that stands there. -/
theorem function_eq_of_answered {request input : Bytes} (hfor : RequestFor server request)
    (hinput : input ≠ []) (hless : input.length < kReadRequestBytes) {trace : Trace rtuCalls}
    {r : Option Bytes} (hround : (server.round input).Exec trace r)
    (hchunks : chunks trace = [request]) (h : Answered server request trace) :
    request.getD 1 0 &&& 0x7F = (input ++ [server.unitId]).getD 1 0 &&& 0x7F := by
  have hsize : request.length = 8 := hfor.size
  obtain ⟨response, hresponse, hone⟩ := h
  cases round_cases hround with
  | idle _ hnone _ _ =>
    rw [hchunks] at hnone
    obtain rfl : request = [] := by simpa using hnone
    exact absurd hsize (by decide)
  | dropped _ _ _ hwritten =>
    rw [hwritten] at hone
    cases hone
  | @served bytes tail rest hbytes _ hserve hlooks hwritten =>
    obtain rfl : request = bytes := by simpa using hchunks.symm.trans hbytes
    have hlong : kReadRequestBytes ≤ (input ++ request).length := by
      rw [List.length_append, hfor.size]
      exact Nat.le_add_left _ _
    obtain ⟨views, answer, last, hanswer, hlast, -, hviews, hsent⟩ := exec_serveInput hlong hserve
    have hshort : ((input ++ request).drop kReadRequestBytes).length < kReadRequestBytes := by
      rw [List.length_drop, List.length_append, hfor.size]
      omega
    obtain ⟨rfl, rfl⟩ := exec_serveInput_short hshort hlast
    have hpiece : ((input ++ request).take kReadRequestBytes).getD 1 0 =
        (input ++ [server.unitId]).getD 1 0 := by
      obtain ⟨first, more, rfl⟩ := List.exists_cons_of_ne_nil hinput
      cases more with
      | nil =>
        obtain ⟨unit, body, rfl⟩ := List.exists_cons_of_length_eq_add_one hsize
        exact hfor.unit
      | cons second more => rfl
    rw [hwritten, hsent] at hone
    rw [hlooks, hviews] at hresponse
    have hsame : answer = response := by
      split at hone
      · cases hone
      · exact (List.cons.inj hone).1
    obtain ⟨-, hnot⟩ | ⟨function, _, rfl, hfunction⟩ := handleRequest_head hresponse
    · exact absurd hfor hnot
    · obtain ⟨rfl, -⟩ | ⟨function', _, rfl, hfunction'⟩ := handleRequest_head hanswer
      · cases hsame
      · obtain ⟨rfl, -⟩ := List.cons.inj (List.cons.inj hsame).2
        rw [← hfunction, hfunction', hpiece]

/-- With bytes waiting there is a request that is not answered, although all of it comes
in one read. -/
theorem exists_unanswered {input : Bytes} (hinput : input ≠ [])
    (hless : input.length < kReadRequestBytes) :
    ∃ request trace r, RequestFor server request ∧ server.RunsFrom input trace r ∧
      delivered trace = request ∧ ¬ Answered server request trace := by
  obtain ⟨function, hfunction⟩ : ∃ function : UInt8,
      function &&& 0x7F ≠ (input ++ [server.unitId]).getD 1 0 &&& 0x7F := by
    by_cases hone : (1 : UInt8) = (input ++ [server.unitId]).getD 1 0 &&& 0x7F
    · exact ⟨2, fun htwo => absurd (hone.trans htwo.symm) (by decide)⟩
    · exact ⟨1, hone⟩
  have hfor : RequestFor server (rtuFrame server.unitId [function, 0, 0, 0, 0]) :=
    ⟨rfl, crcMatches_withCrc _, rfl⟩
  obtain ⟨trace, r, hround, hchunks⟩ := @exists_round server input
    (rtuFrame server.unitId [function, 0, 0, 0, 0]) (List.cons_ne_nil _ _)
    (by rw [length_rtuFrame]; simp)
  refine ⟨_, trace, r, hfor, .round .start hround trivial, ?_, ?_⟩
  · rw [delivered, hchunks, List.flatten_singleton]
  · intro hanswered
    exact hfunction (function_eq_of_answered hfor hinput hless hround hchunks hanswered)

/-- A run, then a silent interval, then the bytes of a request, in any chunks: every such
request is answered if and only if the chunks of the run have left no bytes waiting. -/
theorem resynchronises_iff {history pause : Trace rtuCalls} {input input' : Bytes}
    (h : server.RunsFrom [] history (some input))
    (hpause : (server.round input).Exec pause (some input')) (hsilent : delivered pause = []) :
    (∀ request, RequestFor server request → ∀ trace r, server.RunsFrom input' trace r →
        delivered trace = request → Answered server request trace) ↔
      leftover server.maxFrameBytes ((chunks history).map List.length) = 0 := by
  obtain ⟨hlength, hless⟩ := length_input h
  -- the silent interval leaves the input as it is
  obtain rfl : input' = input := by
    cases round_cases hpause with
    | idle hr _ _ _ => simpa using hr
    | @dropped bytes hchunks hlong _ _ =>
      obtain rfl : bytes = [] := by simpa [delivered, hchunks] using hsilent
      have hfits := server.maxFrameBytes_le
      simp only [kReadRequestBytes] at hless
      rw [List.append_nil] at hlong
      omega
    | @served bytes tail rest hchunks _ hserve _ _ =>
      obtain rfl : bytes = [] := by simpa [delivered, hchunks] using hsilent
      rw [List.append_nil] at hserve
      exact (exec_serveInput_short hless hserve).2
  rw [← hlength]
  constructor
  · intro hall
    by_contra hwaiting
    have hne : input' ≠ [] := fun hnil => hwaiting (by rw [hnil]; rfl)
    obtain ⟨request, trace, r, hfor, hruns, hdelivered, hnot⟩ := exists_unanswered hne hless
    exact hnot (hall request hfor trace r hruns hdelivered)
  · intro hnone request hfor trace r hruns hdelivered
    obtain rfl := List.eq_nil_of_length_eq_zero hnone
    exact answered_of_aligned hfor hruns hdelivered

/-- A round in which the line delivers these bytes and nothing is answered. -/
def arrival (bytes : Bytes) (h : bytes.length ≤ 256) : Trace rtuCalls :=
  [⟨.inl .stopRequested, false⟩, ⟨.inl .readSome, (⟨true, bytes, h⟩ : ReadSome 256)⟩]

theorem exec_arrival {input bytes rest : Bytes} (h : bytes.length ≤ 256) (hbytes : bytes ≠ [])
    (hfits : (input ++ bytes).length ≤ server.maxFrameBytes)
    (hserve : server.serveInput (input ++ bytes) = .done rest) :
    (server.round input).Exec (arrival bytes h) (some rest) := by
  have hfull : bytes.isEmpty = false := List.isEmpty_eq_false_iff.mpr hbytes
  refine Prog.exec_call.mpr ⟨false, _, rfl, Prog.exec_call.mpr ⟨_, _, rfl, ?_⟩⟩
  simp only [Bool.not_true, Bool.false_eq_true, if_false, hfull]
  rw [if_neg (Nat.not_lt.mpr hfits), hserve]
  exact .done _

theorem exec_silence {input : Bytes} :
    (server.round input).Exec (arrival [] (by decide)) (some input) := by
  refine Prog.exec_call.mpr ⟨false, _, rfl, Prog.exec_call.mpr ⟨_, _, rfl, ?_⟩⟩
  exact .done _

/-- A piece for another unit is passed over. -/
theorem serveInput_foreign {input : Bytes} (hsize : kReadRequestBytes ≤ input.length)
    (hless : input.length < 2 * kReadRequestBytes)
    (hunit : (input.take kReadRequestBytes).getD 0 0 ≠ server.unitId) :
    server.serveInput input = .done (input.drop kReadRequestBytes) := by
  rw [serveInput, if_neg (Nat.not_lt.mpr hsize), handleRequest_foreign hunit]
  show server.serveInput (input.drop kReadRequestBytes) = _
  rw [serveInput, if_pos]
  rw [List.length_drop]
  omega

/-- The first round of a run. -/
theorem runsFrom_first {input : Bytes} {trace : Trace rtuCalls} {r : Option Bytes}
    (h : (server.round input).Exec trace r) : server.RunsFrom input trace r := by
  have hstart : server.RunsFrom input [] (some input) := .start
  exact hstart.round h trivial

/-- A read of the first register, for the unit of the default options. -/
def sampleRequest : Bytes := rtuFrame 1 [4, 0x27, 0x11, 0, 1]

/-- After eight bytes for another unit a request is understood. -/
theorem resynchronises_after_foreign_request :
    ∃ trace r, RunsFrom {} [] trace r ∧ delivered trace = sampleRequest ∧
      Answered {} sampleRequest trace := by
  have hhistory : RunsFrom {} [] (arrival [8, 4, 0x27, 0x11, 0, 1, 0, 0] (by decide)) (some []) := by
    refine runsFrom_first (exec_arrival _ (by decide) (by decide) ?_)
    exact serveInput_foreign (by decide) (by decide) (by decide)
  have hfor : RequestFor {} sampleRequest := ⟨rfl, crcMatches_withCrc _, rfl⟩
  obtain ⟨trace, r, hround, hchunks⟩ := @exists_round {} [] sampleRequest (List.cons_ne_nil _ _)
    (Nat.le_of_ble_eq_true rfl)
  have hdelivered : delivered trace = sampleRequest := by
    rw [delivered, hchunks, List.flatten_singleton]
  have hruns := runsFrom_first hround
  have hall := (resynchronises_iff hhistory exec_silence rfl).mpr rfl
  exact ⟨trace, r, hruns, hdelivered, hall sampleRequest hfor trace r hruns hdelivered⟩

/-- One byte of noise is enough: the request behind it is not answered. -/
theorem request_after_noise_unanswered :
    RunsFrom {} [] (arrival [0xFF] (by decide)) (some [0xFF]) ∧
    (round {} [0xFF]).Exec (arrival [] (by decide)) (some [0xFF]) ∧
    RequestFor {} sampleRequest ∧
    RunsFrom {} [0xFF] (arrival sampleRequest (Nat.le_of_ble_eq_true rfl))
      (some (sampleRequest.drop 7)) ∧
    delivered (arrival sampleRequest (Nat.le_of_ble_eq_true rfl)) = sampleRequest ∧
    ¬ Answered {} sampleRequest (arrival sampleRequest (Nat.le_of_ble_eq_true rfl)) := by
  refine ⟨?_, exec_silence, ⟨rfl, crcMatches_withCrc _, rfl⟩, ?_, rfl, ?_⟩
  · refine runsFrom_first (exec_arrival _ (by decide) (by decide) ?_)
    rw [serveInput, if_pos (by decide)]
    rfl
  · refine runsFrom_first (exec_arrival _ (List.cons_ne_nil _ _) (Nat.le_of_ble_eq_true rfl) ?_)
    exact serveInput_foreign (Nat.le_of_ble_eq_true rfl) (Nat.le_of_ble_eq_true rfl) (by decide)
  · rintro ⟨response, -, hwritten⟩
    cases hwritten

end ModbusRtuServer

end Uhf.Modbus
