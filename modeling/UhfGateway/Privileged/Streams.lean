/-
Reading and writing a stream among others.

A party that reads a message, or writes one, does so in steps of any size, and others move
between them.  What it knows meanwhile is a predicate `L` on what has gone over the stream so
far; the rules of this module carry `L` through the loops once and for all.

* `Pipe`, `Wire`, `Sockets` — the streams of all connections, and the calls of the handler;
* `socketWorld` — what the socket calls may answer and do;
* `Reader.guarantees_receiveMessage` — what was received is the frame of a message;
* `Writer.guarantees_sendMessage` — what was sent is a part of the frame, or all of it.
-/
import UhfGateway.Effects.RelyGuarantee
import UhfGateway.Privileged.UnixSocket

namespace Uhf.Privileged

open Effects Effects.Prog

/-! ### The connections -/

/-- One direction of a connection: what has been read, and what is still to be read. -/
structure Pipe where
  read : Bytes := []
  pending : Bytes := []

namespace Pipe

variable (p : Pipe)

/-- Everything written so far. -/
def total : Bytes := p.read ++ p.pending

def put (bytes : Bytes) : Pipe := { p with pending := p.pending ++ bytes }

def take (n : ℕ) : Pipe := ⟨p.read ++ p.pending.take n, p.pending.drop n⟩

@[simp] theorem total_put (bytes : Bytes) : (p.put bytes).total = p.total ++ bytes :=
  (List.append_assoc ..).symm

@[simp] theorem read_put (bytes : Bytes) : (p.put bytes).read = p.read := rfl

@[simp] theorem total_take (n : ℕ) : (p.take n).total = p.total := by
  rw [total, take, List.append_assoc, List.take_append_drop, total]

@[simp] theorem read_take (n : ℕ) : (p.take n).read = p.read ++ p.pending.take n := rfl

theorem read_prefix_total : p.read <+: p.total := List.prefix_append _ _

end Pipe

structure Wire where
  connected : Bool := false
  accepted : Bool := false
  up : Pipe := {}
  down : Pipe := {}

namespace Wire

/-- What an end reads from. -/
def incoming : End → Wire → Pipe
  | .client, w => w.down
  | .server, w => w.up

def put (bytes : Bytes) : End → Wire → Wire
  | .client, w => { w with up := w.up.put bytes }
  | .server, w => { w with down := w.down.put bytes }

def take (n : ℕ) : End → Wire → Wire
  | .client, w => { w with down := w.down.take n }
  | .server, w => { w with up := w.up.take n }

end Wire

/-- A request that was handed to the handler, and its reply. -/
structure HandlerCall (κ : Type) where
  connection : κ
  request : Bytes
  credentials : Credentials
  answer : Option Reply

/-- What the server sends back. -/
def HandlerCall.reply {κ : Type} (call : HandlerCall κ) : Reply := call.answer.getD handlerError

/-- The connections, and the calls of the handler in their order. -/
structure Sockets (κ : Type) where
  wires : κ → Wire := fun _ => {}
  calls : List (HandlerCall κ) := []

variable {κ : Type} [DecidableEq κ]

namespace Sockets

def update (s : Sockets κ) (c : κ) (f : Wire → Wire) : Sockets κ :=
  { s with wires := Function.update s.wires c (f (s.wires c)) }

variable (s : Sockets κ) {c c' : κ} (f : Wire → Wire)

@[simp] theorem update_calls : (s.update c f).calls = s.calls := rfl

@[simp] theorem update_self : (s.update c f).wires c = f (s.wires c) := Function.update_self ..

theorem update_of_ne (h : c' ≠ c) : (s.update c f).wires c' = s.wires c' :=
  Function.update_of_ne h ..

end Sockets

/-- The answers of the socket calls.  A transfer moves any part of what it may; every call
may fail, and may be interrupted, at any time.  A connection is accepted once. -/
def socketAnswers (peer : κ → Credentials) :
    (o : SocketCall κ) → Sockets κ → (socketCalls κ).Answer o → Sockets κ → Prop
  | .connect c, s, ok, s' => s' = s.update c fun w => { w with connected := w.connected || ok }
  | .send e c bytes, s, r, s' =>
    (∃ n ≤ bytes.length, r = .count n ∧ s' = s.update c (Wire.put (bytes.take n) e)) ∨
      ((r = .interrupted ∨ r = .failed) ∧ s' = s)
  | .recv e c size, s, r, s' =>
    (∃ n ≤ size, r = .bytes (((s.wires c).incoming e).pending.take n) ∧
        s' = s.update c (Wire.take n e)) ∨
      ((r = .interrupted ∨ r = .failed) ∧ s' = s)
  | .accept, s, r, s' =>
    (r = none ∧ s' = s) ∨
      ∃ c, r = some c ∧ (s.wires c).connected = true ∧ (s.wires c).accepted = false ∧
        s' = s.update c fun w => { w with accepted := true }
  | .peerCredentials c, s, r, s' => (r = none ∨ r = some (peer c)) ∧ s' = s
  | .handler c request credentials, s, r, s' =>
    s' = { s with calls := s.calls ++ [⟨c, request, credentials, r⟩] }
  | .socket, s, _, s' | .poll _ _ _, s, _, s' | .close _ _, s, _, s' | .setUp _, s, _, s'
  | .stopRequested, s, _, s' | .pollListener, s, _, s' | .closeListener, s, _, s' => s' = s

/-- A process that dies is one that makes no more moves. -/
def socketWorld (peer : κ → Credentials) : World (socketCalls κ) (Sockets κ) where
  answers := socketAnswers peer
  cut _ _ _ := False
  dies _ := False

/-! ### Waiting -/

section Rules

variable {peer : κ → Credentials} {R G : Sockets κ → Sockets κ → Prop}
  {Q : Outcome → Sockets κ → Prop} {e : End} {c : κ} {L : Bytes → Sockets κ → Prop}

/-- A call that leaves everything as it is. -/
theorem guarantees_idle {P : Sockets κ → Prop} {o : SocketCall κ}
    {k : (socketCalls κ).Answer o → SocketProg κ} {s : Sockets κ} (hP : P s)
    (stable : ∀ s s', P s → R s s' → P s') (idle : ∀ s, P s → G s s)
    (same : ∀ s a s', socketAnswers peer o s a s' → s' = s)
    (h : ∀ a s, P s → (k a).Guarantees (socketWorld peer) R G Q s) :
    (sock o k).Guarantees (socketWorld peer) R G Q s := by
  refine guarantees_call hP stable ?_
  intro s a s' hs ha
  obtain rfl := same s a s' ha
  exact ⟨idle s' hs, h a s' hs⟩

theorem guarantees_waitFor {P : Sockets κ → Prop} {output : Bool} {k : Bool → SocketProg κ}
    (stable : ∀ s s', P s → R s s' → P s') (idle : ∀ s, P s → G s s)
    (unfinished : ∀ s, Q .unfinished s)
    (h : ∀ ready s, P s → (k ready).Guarantees (socketWorld peer) R G Q s) (fuel : ℕ)
    {s : Sockets κ} (hP : P s) :
    (waitFor e c output fuel k).Guarantees (socketWorld peer) R G Q s := by
  induction fuel generalizing s with
  | zero => exact fun t _ => unfinished t
  | succ fuel ih =>
    refine guarantees_idle hP stable idle (fun _ _ _ ha => ha) ?_
    intro polled s hs
    cases polled with
    | interrupted => exact ih hs
    | ready => exact h true s hs
    | notReady => exact h false s hs

/-! ### Reading -/

/-- A party that may read: `L got` is what it knows when `got` has come in. -/
structure Reader (R G : Sockets κ → Sockets κ → Prop) (e : End) (c : κ)
    (L : Bytes → Sockets κ → Prop) : Prop where
  stable : ∀ got s s', L got s → R s s' → L got s'
  idle : ∀ got s, L got s → G s s
  takes : ∀ got s n, L got s → G s (s.update c (Wire.take n e)) ∧
    L (got ++ ((s.wires c).incoming e).pending.take n) (s.update c (Wire.take n e))

theorem Reader.guarantees_readAll (reader : Reader R G e c L) (unfinished : ∀ s, Q .unfinished s)
    {k : Option Bytes → SocketProg κ} (limit fuel : ℕ) {size : ℕ} {received got : Bytes}
    {s : Sockets κ}
    (hall : ∀ more s, more.length = size → L (got ++ more) s →
      (k (some (received ++ more))).Guarantees (socketWorld peer) R G Q s)
    (hnone : ∀ got s, L got s → (k none).Guarantees (socketWorld peer) R G Q s)
    (hL : L got s) :
    (readAll e c limit fuel size received k).Guarantees (socketWorld peer) R G Q s := by
  -- induction on the rounds left; each delivery makes `got` and `received` longer alike
  induction fuel generalizing size received got s with
  | zero =>
    cases size with
    | zero =>
      have hdone := hall [] s rfl (by rwa [List.append_nil])
      rwa [List.append_nil] at hdone
    | succ size => exact fun t _ => unfinished t
  | succ fuel ih =>
    cases size with
    | zero =>
      have hdone := hall [] s rfl (by rwa [List.append_nil])
      rwa [List.append_nil] at hdone
    | succ size =>
      refine guarantees_waitFor (reader.stable got) (reader.idle got) unfinished ?_ limit hL
      intro ready s hs
      cases ready with
      | false => exact hnone got s hs
      | true =>
        refine guarantees_call hs (reader.stable got) ?_
        rintro s r s' hs (⟨n, hn, rfl, rfl⟩ | ⟨rfl | rfl, rfl⟩)
        · obtain ⟨hG, hnext⟩ := reader.takes got s n hs
          refine ⟨hG, ?_⟩
          set more := ((s.wires c).incoming e).pending.take n with hmore
          have hle : more.length ≤ size + 1 := by
            rw [hmore, List.length_take]
            omega
          show (if 0 < more.length then readAll e c limit fuel (size + 1 - more.length)
              (received ++ more) k else k none).Guarantees (socketWorld peer) R G Q _
          by_cases hsome : 0 < more.length
          · rw [if_pos hsome]
            refine ih ?_ hnext
            intro rest s hrest hs
            have hdone := hall (more ++ rest) s (by rw [List.length_append]; omega)
              (by rwa [← List.append_assoc])
            rwa [← List.append_assoc] at hdone
          · rw [if_neg hsome]
            exact hnone _ _ hnext
        · exact ⟨reader.idle got s' hs, ih hall hs⟩
        · exact ⟨reader.idle got s' hs, hnone got s' hs⟩

/-- When a message was received, its frame is what has come in. -/
theorem Reader.guarantees_receiveMessage (reader : Reader R G e c L)
    (unfinished : ∀ s, Q .unfinished s) {k : Option Bytes → SocketProg κ} (fuel : ℕ)
    {s : Sockets κ}
    (hsome : ∀ message s, message.length ≤ kMaxMessageBytes → L (frame message) s →
      (k (some message)).Guarantees (socketWorld peer) R G Q s)
    (hnone : ∀ got s, L got s → (k none).Guarantees (socketWorld peer) R G Q s)
    (hL : L [] s) : (receiveMessage e c fuel k).Guarantees (socketWorld peer) R G Q s := by
  refine reader.guarantees_readAll unfinished fuel fuel ?_ hnone hL
  intro header s hheader hs
  rw [List.nil_append] at hs
  show (if kMaxMessageBytes < (readU32 header).toNat then k none
    else if (readU32 header).toNat = 0 then k (some [])
    else readAll e c fuel fuel (readU32 header).toNat [] k).Guarantees (socketWorld peer) R G Q s
  by_cases hlarge : kMaxMessageBytes < (readU32 header).toNat
  · rw [if_pos hlarge]
    exact hnone header s hs
  · rw [if_neg hlarge]
    by_cases hempty : (readU32 header).toNat = 0
    · rw [if_pos hempty]
      have hframe : frame [] = header ++ [] := frame_of_header hheader hempty.symm
      refine hsome [] s (Nat.zero_le _) ?_
      rwa [hframe, List.append_nil]
    · rw [if_neg hempty]
      refine reader.guarantees_readAll unfinished fuel fuel ?_ hnone hs
      intro message s hmessage hs
      refine hsome message s (by omega) ?_
      rwa [frame_of_header hheader hmessage]

/-! ### Writing -/

/-- A party that may write parts of `target`: `L sent` is what it knows when `sent` is out. -/
structure Writer (R G : Sockets κ → Sockets κ → Prop) (e : End) (c : κ) (target : Bytes)
    (L : Bytes → Sockets κ → Prop) : Prop where
  stable : ∀ sent s s', L sent s → R s s' → L sent s'
  idle : ∀ sent s, L sent s → G s s
  puts : ∀ sent s bytes, L sent s → sent ++ bytes <+: target →
    G s (s.update c (Wire.put bytes e)) ∧ L (sent ++ bytes) (s.update c (Wire.put bytes e))

theorem Writer.guarantees_writeAll {target : Bytes} (writer : Writer R G e c target L)
    (unfinished : ∀ s, Q .unfinished s) {k : Bool → SocketProg κ} (limit fuel : ℕ)
    {bytes sent : Bytes} {s : Sockets κ} (hbegins : sent ++ bytes <+: target)
    (htrue : ∀ s, L (sent ++ bytes) s → (k true).Guarantees (socketWorld peer) R G Q s)
    (hfalse : ∀ sent s, L sent s → (k false).Guarantees (socketWorld peer) R G Q s)
    (hL : L sent s) :
    (writeAll e c limit fuel bytes k).Guarantees (socketWorld peer) R G Q s := by
  induction fuel generalizing bytes sent s with
  | zero =>
    cases bytes with
    | nil => exact htrue s (by rwa [List.append_nil])
    | cons b bytes => exact fun t _ => unfinished t
  | succ fuel ih =>
    cases bytes with
    | nil => exact htrue s (by rwa [List.append_nil])
    | cons b bytes =>
      refine guarantees_waitFor (writer.stable sent) (writer.idle sent) unfinished ?_ limit hL
      intro ready s hs
      cases ready with
      | false => exact hfalse sent s hs
      | true =>
        refine guarantees_call hs (writer.stable sent) ?_
        rintro s r s' hs (⟨n, hn, rfl, rfl⟩ | ⟨rfl | rfl, rfl⟩)
        · have hsplit :
              sent ++ (b :: bytes).take n ++ (b :: bytes).drop n = sent ++ b :: bytes := by
            rw [List.append_assoc, List.take_append_drop]
          have hpart : sent ++ (b :: bytes).take n <+: target := by
            refine List.IsPrefix.trans ?_ hbegins
            rw [← hsplit]
            exact List.prefix_append _ _
          obtain ⟨hG, hnext⟩ := writer.puts sent s _ hs hpart
          refine ⟨hG, ?_⟩
          show (if 0 < n then writeAll e c limit fuel ((b :: bytes).drop n) k
            else k false).Guarantees (socketWorld peer) R G Q _
          by_cases hsome : 0 < n
          · rw [if_pos hsome]
            refine ih ?_ ?_ hnext
            · rwa [hsplit]
            · rwa [hsplit]
          · rw [if_neg hsome]
            exact hfalse _ _ hnext
        · exact ⟨writer.idle sent s' hs, ih hbegins htrue hs⟩
        · exact ⟨writer.idle sent s' hs, hfalse sent s' hs⟩

/-- When a message was sent, its frame is what is out; when not, a part of it may be. -/
theorem guarantees_sendMessage {message : Bytes}
    (writer : message.length ≤ kMaxMessageBytes → Writer R G e c (frame message) L)
    (unfinished : ∀ s, Q .unfinished s) {k : Bool → SocketProg κ} (fuel : ℕ) {s : Sockets κ}
    (htrue : ∀ s, L (frame message) s → (k true).Guarantees (socketWorld peer) R G Q s)
    (hfalse : ∀ sent s, L sent s → (k false).Guarantees (socketWorld peer) R G Q s)
    (hL : L [] s) : (sendMessage e c fuel message k).Guarantees (socketWorld peer) R G Q s := by
  unfold sendMessage
  by_cases hlarge : kMaxMessageBytes < message.length ∨ 0xFFFFFFFF < message.length
  · rw [if_pos hlarge]
    exact hfalse [] s hL
  · rw [if_neg hlarge]
    have hw := writer (by omega)
    refine hw.guarantees_writeAll unfinished fuel fuel (List.prefix_append _ message) ?_ hfalse hL
    intro s hs
    exact hw.guarantees_writeAll unfinished fuel fuel List.prefix_rfl htrue hfalse hs

end Rules

end Uhf.Privileged
