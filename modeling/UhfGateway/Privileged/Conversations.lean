/-
Conversations over the privileged socket, in whatever order the parties move.

The server works through the connections it accepts while any number of clients connect,
write and read.  Some of the clients are the gateway's own requests; the others may do
anything that can be done with a connection of one's own.

* `guarantees_request` — the client's request promises not to touch what is not its own,
  and replies with nothing but what it has read;
* `conversation_exact` — no request is torn, repeated or answered with another's reply.
-/
import UhfGateway.Privileged.Serving

namespace Uhf.Privileged

open Effects Effects.Prog

variable {κ : Type}

/-! ### The clients -/

section Clients

variable (ours : κ → Prop) (message : κ → Bytes)

/-- What the gateway has written to a connection of its own is a part of its message. -/
def Speaks (c : κ) (s : Sockets κ) : Prop :=
  (s.wires c).up.total = [] ∨
    (message c).length ≤ kMaxMessageBytes ∧ (s.wires c).up.total <+: frame (message c)

/-- What a client promises the others. -/
structure ClientGuarantee (c : κ) (s s' : Sockets κ) : Prop where
  served : SameServed s s'
  others : ∀ c', c' ≠ c → SameSpoken c' s s'
  speaks : ours c → Speaks message c s → Speaks message c s'

/-- The calls anybody can make at the client's end of a connection. -/
def OwnEnd (c : κ) : SocketCall κ → Prop
  | .socket => True
  | .connect c' => c' = c
  | .poll e c' _ => e = .client ∧ c' = c
  | .send e c' _ => e = .client ∧ c' = c
  | .recv e c' _ => e = .client ∧ c' = c
  | .close e c' => e = .client ∧ c' = c
  | _ => False

variable {ours message} {peer : κ → Credentials} {c : κ}

theorem ClientGuarantee.refl (c : κ) (s : Sockets κ) : ClientGuarantee ours message c s s :=
  ⟨.refl s, fun c' _ => .refl c' s, fun _ => id⟩

/-- What a reply means to the client that returns it. -/
def Understood (message : κ → Bytes) (c : κ) (r : Outcome) (s : Sockets κ) : Prop :=
  ∀ reply, r = .replied reply →
    reply = messageTooLarge ∧ kMaxMessageBytes < (message c).length ∨ reply = unavailable ∨
      ∃ response, response.length ≤ kMaxMessageBytes ∧
        (s.wires c).down.read = frame response ∧ reply = parseReply response

theorem understood_of_same {r : Outcome} {s s' : Sockets κ} (h : Understood message c r s)
    (same : SameSpoken c s s') : Understood message c r s' := by
  intro reply hr
  refine (h reply hr).imp_right (Or.imp_right ?_)
  rintro ⟨response, hlength, hread, hreply⟩
  exact ⟨response, hlength, same.read.trans hread, hreply⟩

section Moves

variable [DecidableEq κ]

/-- A move at the client's end. -/
theorem clientGuarantee_update {s : Sockets κ} {f : Wire → Wire}
    (haccepted : (f (s.wires c)).accepted = (s.wires c).accepted)
    (hread : (f (s.wires c)).up.read = (s.wires c).up.read)
    (hwritten : (f (s.wires c)).down.total = (s.wires c).down.total)
    (speaks : ours c → Speaks message c s → Speaks message c (s.update c f)) :
    ClientGuarantee ours message c s (s.update c f) :=
  ⟨.update haccepted hread hwritten, fun _ hc => .update_of_ne hc, speaks⟩

/-- What the client has said does not change while it connects or reads. -/
theorem speaks_update {s : Sockets κ} {f : Wire → Wire}
    (h : (f (s.wires c)).up.total = (s.wires c).up.total) (hs : Speaks message c s) :
    Speaks message c (s.update c f) := by
  rw [Speaks, Sockets.update_self, h]
  exact hs

/-- Whatever others do with a connection of their own keeps what the rest relies on. -/
theorem guarantees_other (hours : ¬ ours c) {o : SocketCall κ} (ho : OwnEnd c o)
    (s : Sockets κ) (a : (socketCalls κ).Answer o) (s' : Sockets κ)
    (ha : socketAnswers peer o s a s') : ClientGuarantee ours message c s s' := by
  have hmoves : ∀ f : Wire → Wire, (f (s.wires c)).accepted = (s.wires c).accepted →
      (f (s.wires c)).up.read = (s.wires c).up.read →
      (f (s.wires c)).down.total = (s.wires c).down.total →
      ClientGuarantee ours message c s (s.update c f) := fun f h₁ h₂ h₃ =>
    clientGuarantee_update h₁ h₂ h₃ fun h => absurd h hours
  cases o with
  | connect c' =>
    obtain rfl : c' = c := ho
    obtain rfl := ha
    exact hmoves _ rfl rfl rfl
  | send e c' bytes =>
    obtain ⟨rfl, rfl⟩ := ho
    rcases ha with ⟨n, -, rfl, rfl⟩ | ⟨-, rfl⟩
    · exact hmoves _ rfl rfl rfl
    · exact .refl c' s'
  | recv e c' size =>
    obtain ⟨rfl, rfl⟩ := ho
    rcases ha with ⟨n, -, rfl, rfl⟩ | ⟨-, rfl⟩
    · exact hmoves _ rfl rfl (Pipe.total_take (s.wires c').down n)
    · exact .refl c' s'
  | socket | poll | close =>
    obtain rfl := ha
    exact .refl c s'
  | setUp | stopRequested | pollListener | accept | closeListener | peerCredentials | handler =>
    exact absurd ho id

theorem reader_client (c : κ) :
    Reader (SameSpoken c) (ClientGuarantee ours message c) .client c
      (fun got s => (s.wires c).down.read = got) where
  stable _ _ _ h same := same.read.trans h
  idle _ s _ := .refl c s
  takes got s n h := by
    refine ⟨?_, ?_⟩
    · exact clientGuarantee_update rfl rfl (Pipe.total_take (s.wires c).down n) fun _ =>
        speaks_update rfl
    · rw [Sockets.update_self, ← h]
      rfl

theorem writer_client (c : κ) (hlength : (message c).length ≤ kMaxMessageBytes) :
    Writer (SameSpoken c) (ClientGuarantee ours message c) .client c (frame (message c))
      (fun sent s => (s.wires c).up.total = sent ∧ (s.wires c).down.read = []) where
  stable _ _ _ h same := ⟨same.written.trans h.1, same.read.trans h.2⟩
  idle _ s _ := .refl c s
  puts sent s bytes h hpart := by
    have hwritten : ((s.update c (Wire.put bytes .client)).wires c).up.total = sent ++ bytes := by
      rw [Sockets.update_self, ← h.1]
      exact Pipe.total_put (s.wires c).up bytes
    refine ⟨clientGuarantee_update rfl rfl rfl fun _ _ => ?_, hwritten, ?_⟩
    · exact .inr ⟨hlength, by rwa [hwritten]⟩
    · rw [Sockets.update_self]
      exact h.2

/-- The client's request keeps what the others rely on, and its reply is one it has read. -/
theorem guarantees_request (socketPath : Bytes) (fuel : ℕ) {s : Sockets κ}
    (hwritten : (s.wires c).up.total = []) (hread : (s.wires c).down.read = []) :
    (UnixSocketClient.request socketPath fuel c (message c)).Guarantees (socketWorld peer)
      (SameSpoken c) (ClientGuarantee ours message c) (Understood message c) s := by
  have hquiet : ∀ s : Sockets κ, Understood message c .unfinished s := by
    intro s reply hr
    cases hr
  have hdone : ∀ {reply : Reply} {s : Sockets κ}, Understood message c (.replied reply) s →
      (Prog.done (.replied reply) : SocketProg κ).Guarantees (socketWorld peer) (SameSpoken c)
        (ClientGuarantee ours message c) (Understood message c) s := fun h =>
    guarantees_done h fun s s' hs same => understood_of_same hs same
  have hclose : ∀ {reply : Reply} {s : Sockets κ}, Understood message c (.replied reply) s →
      (closeWith c reply).Guarantees (socketWorld peer) (SameSpoken c)
        (ClientGuarantee ours message c) (Understood message c) s := fun h =>
    guarantees_idle h (fun s s' hs same => understood_of_same hs same) (fun s _ => .refl c s)
      (fun _ _ _ ha => ha) fun _ _ hs => hdone hs
  have hfailed : ∀ s : Sockets κ, (closeWith c unavailable).Guarantees (socketWorld peer)
      (SameSpoken c) (ClientGuarantee ours message c) (Understood message c) s := by
    intro s
    refine hclose ?_
    rintro reply ⟨⟩
    exact .inr (.inl rfl)
  have hunavailable : ∀ s : Sockets κ, (Prog.done (.replied unavailable) :
      SocketProg κ).Guarantees (socketWorld peer) (SameSpoken c)
        (ClientGuarantee ours message c) (Understood message c) s := by
    intro s
    refine hdone ?_
    rintro reply ⟨⟩
    exact .inr (.inl rfl)
  have hstable : ∀ s s' : Sockets κ,
      (s.wires c).up.total = [] ∧ (s.wires c).down.read = [] → SameSpoken c s s' →
      (s'.wires c).up.total = [] ∧ (s'.wires c).down.read = [] := fun s s' h same =>
    ⟨same.written.trans h.1, same.read.trans h.2⟩
  unfold UnixSocketClient.request
  by_cases hlarge : kMaxMessageBytes < (message c).length
  · rw [if_pos hlarge]
    refine hdone ?_
    rintro reply ⟨⟩
    exact .inl ⟨rfl, hlarge⟩
  rw [if_neg hlarge]
  refine guarantees_idle ⟨hwritten, hread⟩ hstable (fun s _ => .refl c s) (fun _ _ _ ha => ha) ?_
  intro created s hs
  cases created with
  | false => exact hunavailable s
  | true =>
    show (if !makeAddress socketPath then closeWith c unavailable
      else sock (.connect c) _).Guarantees _ _ _ _ s
    by_cases haddress : makeAddress socketPath = true
    · rw [haddress]
      refine guarantees_call hs hstable ?_
      rintro s connected s' hs rfl
      refine ⟨clientGuarantee_update rfl rfl rfl fun _ => speaks_update rfl, ?_⟩
      cases connected with
      | false => exact hfailed _
      | true =>
        refine guarantees_sendMessage (writer_client c) hquiet fuel ?_
          (fun _ s _ => hfailed s) ?_
        · intro s hs
          show (receiveMessage .client c fuel fun response =>
            closeWith c (response.elim unavailable parseReply)).Guarantees (socketWorld peer)
              (SameSpoken c) (ClientGuarantee ours message c) (Understood message c) s
          refine (reader_client c).guarantees_receiveMessage hquiet fuel ?_ ?_ hs.2
          · intro response s hlength hs
            refine hclose ?_
            rintro reply ⟨⟩
            exact .inr (.inr ⟨response, hlength, hs, rfl⟩)
          · intro _ s _
            exact hfailed s
        · rw [Sockets.update_self]
          exact hs
    · rw [Bool.eq_false_iff.mpr haddress]
      exact hfailed s

end Moves

end Clients

/-! ### Everybody together -/

section Together

/-- The connections, and what is left of the server's program and of each client's. -/
abbrev Conversing (κ : Type) := Parties (socketCalls κ) (Option κ) Outcome (Sockets κ)

/-- What a party relies on. -/
def relies : Option κ → Sockets κ → Sockets κ → Prop
  | none => SameServed
  | some c => SameSpoken c

/-- What a party promises. -/
def promises (peer : κ → Credentials) (server : UnixSocketServer) (ours : κ → Prop)
    (message : κ → Bytes) : Option κ → Sockets κ → Sockets κ → Prop
  | none => ServerGuarantee peer server
  | some c => ClientGuarantee ours message c

/-- What a party leaves behind. -/
def leaves (ours : κ → Prop) (message : κ → Bytes) : Option κ → Outcome → Sockets κ → Prop
  | none => fun _ _ => True
  | some c => fun r s => ours c → Understood message c r s

variable {peer : κ → Credentials} {server : UnixSocketServer} {ours : κ → Prop}
  {message : κ → Bytes}

theorem promises_relies (i j : Option κ) (hij : i ≠ j) (s s' : Sockets κ)
    (h : promises peer server ours message j s s') : relies i s s' := by
  cases i with
  | none =>
    cases j with
    | none => exact absurd rfl hij
    | some c => exact h.served
  | some c =>
    cases j with
    | none => exact h.2 c
    | some c' => exact h.others c fun hc => hij (congrArg some hc)

/-- Before anybody moves. -/
theorem sound_fresh : Sound peer server ({} : Sockets κ) where
  untouched _ _ := ⟨rfl, rfl, fun _ hcall => absurd hcall List.not_mem_nil⟩
  once := List.nodup_nil
  handled _ hcall := absurd hcall List.not_mem_nil
  answered _ hc := absurd rfl hc

/-- A server, and clients of which some are the gateway's requests. -/
structure Starts (server : UnixSocketServer) (ours : κ → Prop) (message : κ → Bytes)
    (x : Conversing κ) : Prop where
  fresh : x.shared = {}
  serves : ∃ fuel rounds, x.left none = server.run fuel rounds
  requests : ∀ c, ours c → ∃ socketPath fuel,
    x.left (some c) = UnixSocketClient.request socketPath fuel c (message c)
  others : ∀ c, ¬ ours c → (x.left (some c)).Only (OwnEnd c)

theorem Starts.guarantees [DecidableEq κ] {start : Conversing κ}
    (h : Starts server ours message start) (i : Option κ) :
    (start.left i).Guarantees (socketWorld peer) (relies i)
      (promises peer server ours message i) (leaves ours message i) start.shared := by
  rw [h.fresh]
  cases i with
  | none =>
    obtain ⟨fuel, rounds, hserver⟩ := h.serves
    rw [hserver]
    exact guarantees_run fuel rounds sound_fresh
  | some c =>
    by_cases hours : ours c
    · obtain ⟨socketPath, fuel, hclient⟩ := h.requests c hours
      rw [hclient]
      exact (guarantees_request socketPath fuel rfl rfl).mono fun _ _ hQ _ => hQ
    · have hown : ∀ o, OwnEnd c o → ∀ s a s', (socketWorld peer).answers o s a s' →
          ClientGuarantee ours message c s s' := fun _ ho => guarantees_other hours ho
      exact ((h.others c hours).guarantees hown _).mono fun _ _ _ hc => absurd hc hours

/-- What holds in every state the parties lead to. -/
structure Agreed (peer : κ → Credentials) (server : UnixSocketServer) (ours : κ → Prop)
    (message : κ → Bytes) (s : Sockets κ) : Prop where
  sound : Sound peer server s
  speaks : ∀ c, ours c → Speaks message c s

theorem agreed [DecidableEq κ] {start x : Conversing κ}
    (hstart : Starts server ours message start)
    (h : Interleaved (socketWorld peer) (fun _ _ _ => True) start x) :
    Agreed peer server ours message x.shared := by
  refine h.kept promises_relies hstart.guarantees ?_ ?_
  · rw [hstart.fresh]
    exact ⟨sound_fresh, fun c _ => .inl rfl⟩
  · rintro i s s' ⟨hsound, hspeaks⟩ hG
    cases i with
    | none =>
      refine ⟨hG.1 hsound, ?_⟩
      intro c hc
      rw [Speaks, (hG.2 c).written]
      exact hspeaks c hc
    | some c =>
      refine ⟨hsound.of_same hG.served, ?_⟩
      intro c' hc'
      by_cases hcc : c' = c
      · subst hcc
        exact hG.speaks hc' (hspeaks c' hc')
      · rw [Speaks, (hG.others c' hcc).written]
        exact hspeaks c' hc'

/-- What was called is what its connection carried, a part of the one message sent there. -/
theorem Agreed.carried {s : Sockets κ} (h : Agreed peer server ours message s)
    {call : HandlerCall κ} (hcall : call ∈ s.calls) (hours : ours call.connection) :
    (message call.connection).length ≤ kMaxMessageBytes ∧
      call.request = message call.connection := by
  obtain ⟨hlength, hrequest, -, -⟩ := h.sound.handled call hcall
  have hcarried := Pipe.read_prefix_total (s.wires call.connection).up
  rw [← hrequest] at hcarried
  rcases h.speaks _ hours with hnothing | ⟨hfits, hpart⟩
  · rw [hnothing, List.prefix_nil] at hcarried
    exact absurd hcarried (by simp [frame, writeU32])
  · exact ⟨hfits, frame_prefix hlength hfits (hcarried.trans hpart)⟩

/-- What was read is a part of the frame of the reply that is due. -/
theorem Agreed.understood {s : Sockets κ} (h : Agreed peer server ours message s) {c : κ}
    {reply : Reply} (hu : Understood message c (.replied reply) s) :
    (reply = messageTooLarge ∧ kMaxMessageBytes < (message c).length) ∨ reply = unavailable ∨
      (reply = unauthorizedPeer ∧ (peer c).uid ≠ server.allowedUid) ∨
      ∃ call ∈ s.calls, call.connection = c ∧ reply = parseReply (replyMessage call.reply) := by
  rcases hu reply rfl with ⟨hreply, hlarge⟩ | hreply | ⟨response, hfits, hread, hreply⟩
  · exact .inl ⟨hreply, hlarge⟩
  · exact .inr (.inl hreply)
  have hwritten := Pipe.read_prefix_total (s.wires c).down
  rw [hread] at hwritten
  have hsome : (s.wires c).down.total ≠ [] := by
    intro hnothing
    rw [hnothing, List.prefix_nil] at hwritten
    exact absurd hwritten (by simp [frame, writeU32])
  obtain ⟨due, hdue, hlength, hpart⟩ := h.sound.answered c hsome
  have hresponse : response = replyMessage due :=
    frame_prefix hfits hlength (hwritten.trans hpart)
  rw [hresponse] at hreply
  rcases hdue with ⟨call, hcall, hc, hcallreply⟩ | ⟨hforbidden, rfl⟩
  · rw [← hcallreply] at hreply
    exact .inr (.inr (.inr ⟨call, hcall, hc, hreply⟩))
  · rw [(parseReply_replyMessage unauthorizedPeer).mpr (by decide)] at hreply
    exact .inr (.inr (.inl ⟨hreply, hforbidden⟩))

/-- A client of the gateway's that has returned. -/
theorem understood_reply [DecidableEq κ] {start x : Conversing κ}
    (hstart : Starts server ours message start)
    (h : Interleaved (socketWorld peer) (fun _ _ _ => True) start x) {c : κ} {reply : Reply}
    (hours : ours c) (hdone : x.left (some c) = .done (.replied reply)) :
    Understood message c (.replied reply) x.shared := by
  have hclient := h.parallel promises_relies hstart.guarantees (some c)
  rw [hdone] at hclient
  exact hclient.result hours

end Together

/-! ### One conversation from its beginning to its end -/

section Exchange

/-- A client and a server, with what is left of their programs. -/
def twoParties (s : Sockets Unit) (client serving : SocketProg Unit) : Conversing Unit :=
  ⟨s, fun i => i.elim serving fun _ => client⟩

/-- The only peer, and the states its conversation leads to. -/
abbrev Exchange (x y : Conversing Unit) : Prop :=
  Interleaved (socketWorld fun _ => ⟨1000, 1000⟩) (fun _ _ _ => True) x y

variable {x : Conversing Unit} {s s' : Sockets Unit} {client serving : SocketProg Unit}
  {o : SocketCall Unit} {k : (socketCalls Unit).Answer o → SocketProg Unit}

theorem exchange_client (a : (socketCalls Unit).Answer o)
    (h : Exchange x (twoParties s (sock o k) serving))
    (ha : socketAnswers (fun _ => ⟨1000, 1000⟩) o s a s') :
    Exchange x (twoParties s' (k a) serving) := by
  have hleft : Function.update (twoParties s (sock o k) serving).left (some ()) (k a) =
      (twoParties s' (k a) serving).left := by
    funext i
    rcases i with - | ⟨⟨⟩⟩ <;> rfl
  have hmoved : Move (socketWorld fun _ => ⟨1000, 1000⟩) (twoParties s (sock o k) serving)
      (some ()) ⟨o, a⟩ ⟨s', Function.update _ (some ()) (k a)⟩ := .move rfl ha
  rw [hleft] at hmoved
  exact h.step hmoved trivial

theorem exchange_server (a : (socketCalls Unit).Answer o)
    (h : Exchange x (twoParties s client (sock o k)))
    (ha : socketAnswers (fun _ => ⟨1000, 1000⟩) o s a s') :
    Exchange x (twoParties s' client (k a)) := by
  have hleft : Function.update (twoParties s client (sock o k)).left none (k a) =
      (twoParties s' client (k a)).left := by
    funext i
    rcases i with - | ⟨⟨⟩⟩ <;> rfl
  have hmoved : Move (socketWorld fun _ => ⟨1000, 1000⟩) (twoParties s client (sock o k))
      none ⟨o, a⟩ ⟨s', Function.update _ none (k a)⟩ := .move rfl ha
  rw [hleft] at hmoved
  exact h.step hmoved trivial

def exchangeRequest : Bytes := ascii "time.disable"

def exchangeReply : Reply :=
  { ok := true, code := ascii "ok", body := ascii "\x7b\"result\":\"ok\"\x7d\n" }

/-- A request, and a server that will accept one connection. -/
def exchangeStart : Conversing Unit :=
  twoParties {} (UnixSocketClient.request [0x73] 1 () exchangeRequest)
    (UnixSocketServer.run ⟨[0x73], 1000⟩ 1 1)

theorem starts_exchange :
    Starts ⟨[0x73], 1000⟩ (fun _ => True) (fun _ => exchangeRequest) exchangeStart where
  fresh := rfl
  serves := ⟨1, 1, rfl⟩
  requests _ _ := ⟨[0x73], 1, rfl⟩
  others _ h := absurd trivial h

/-- The server is called, and the client returns its reply. -/
theorem exchange_ends : ∃ y, Exchange exchangeStart y ∧
    y.left (some ()) = .done (.replied exchangeReply) ∧
    y.shared.calls = [⟨(), exchangeRequest, ⟨1000, 1000⟩, some exchangeReply⟩] := by
  have h : Exchange exchangeStart exchangeStart := .refl
  -- the server sets its socket up
  have h := exchange_server true h rfl
  have h := exchange_server true h rfl
  have h := exchange_server true h rfl
  have h := exchange_server true h rfl
  have h := exchange_server true h rfl
  have h := exchange_server true h rfl
  -- the client connects and sends its message
  have h := exchange_client true h rfl
  have h := exchange_client true h rfl
  have h := exchange_client Polled.ready h rfl
  have h := exchange_client (Sent.count 4) h (.inl ⟨4, by decide, rfl, rfl⟩)
  have h := exchange_client Polled.ready h rfl
  have h := exchange_client (Sent.count 12) h (.inl ⟨12, by decide, rfl, rfl⟩)
  -- the server accepts, receives, handles and replies
  have h := exchange_server false h rfl
  have h := exchange_server true h rfl
  have h := exchange_server (some ()) h (.inr ⟨(), rfl, rfl, rfl, rfl⟩)
  have h := exchange_server Polled.ready h rfl
  have h := exchange_server (Received.bytes [0, 0, 0, 12]) h (.inl ⟨4, by decide, rfl, rfl⟩)
  have h := exchange_server Polled.ready h rfl
  have h := exchange_server (Received.bytes exchangeRequest) h (.inl ⟨12, by decide, rfl, rfl⟩)
  have h := exchange_server (some ⟨1000, 1000⟩) h ⟨.inr rfl, rfl⟩
  have h := exchange_server (some exchangeReply) h rfl
  have h := exchange_server Polled.ready h rfl
  have h := exchange_server (Sent.count 4) h (.inl ⟨4, by decide, rfl, rfl⟩)
  have h := exchange_server Polled.ready h rfl
  have h := exchange_server (Sent.count 22) h (.inl ⟨22, by decide, rfl, rfl⟩)
  -- the client reads the reply and closes
  have h := exchange_client Polled.ready h rfl
  have h := exchange_client (Received.bytes [0, 0, 0, 22]) h (.inl ⟨4, by decide, rfl, rfl⟩)
  have h := exchange_client Polled.ready h rfl
  have h := exchange_client (Received.bytes (replyMessage exchangeReply)) h
    (.inl ⟨22, by decide, rfl, rfl⟩)
  have h := exchange_client true h rfl
  exact ⟨_, h, rfl, rfl⟩

end Exchange

end Uhf.Privileged
