/-
The server's side of the privileged socket.

What the server has read from a connection and written to it is the server's alone, and so
are the calls of its handler; what a client has written and read is that client's.  Clients
may move at any time, but never in what is the server's.

* `Sound` — every call of the handler is a message its connection carried, made once for a
  peer that may make it, and what was sent back is the reply to it;
* `guarantees_run` — the server keeps it whatever the clients do.
-/
import UhfGateway.Privileged.Streams

namespace Uhf.Privileged

open Effects Effects.Prog

variable {κ : Type}

/-! ### Whose state is whose -/

/-- Nothing of the server's has changed. -/
structure SameServed (s s' : Sockets κ) : Prop where
  accepted : ∀ c, (s'.wires c).accepted = (s.wires c).accepted
  read : ∀ c, (s'.wires c).up.read = (s.wires c).up.read
  written : ∀ c, (s'.wires c).down.total = (s.wires c).down.total
  calls : s'.calls = s.calls

/-- Nothing of the client's at this connection has changed. -/
structure SameSpoken (c : κ) (s s' : Sockets κ) : Prop where
  written : (s'.wires c).up.total = (s.wires c).up.total
  read : (s'.wires c).down.read = (s.wires c).down.read

theorem SameServed.refl (s : Sockets κ) : SameServed s s :=
  ⟨fun _ => rfl, fun _ => rfl, fun _ => rfl, rfl⟩

theorem SameSpoken.refl (c : κ) (s : Sockets κ) : SameSpoken c s s := ⟨rfl, rfl⟩

section Changes

variable [DecidableEq κ]

/-- A change of one connection that leaves the server's part of it alone. -/
theorem SameServed.update {s : Sockets κ} {c : κ} {f : Wire → Wire}
    (haccepted : (f (s.wires c)).accepted = (s.wires c).accepted)
    (hread : (f (s.wires c)).up.read = (s.wires c).up.read)
    (hwritten : (f (s.wires c)).down.total = (s.wires c).down.total) :
    SameServed s (s.update c f) := by
  refine ⟨?_, ?_, ?_, rfl⟩ <;>
  · intro c'
    by_cases hc : c' = c
    · subst hc
      rw [Sockets.update_self]
      assumption
    · rw [Sockets.update_of_ne s f hc]

/-- A change of one connection that leaves the client's part of it alone. -/
theorem SameSpoken.update {s : Sockets κ} {c : κ} {f : Wire → Wire}
    (hwritten : (f (s.wires c)).up.total = (s.wires c).up.total)
    (hread : (f (s.wires c)).down.read = (s.wires c).down.read) (c' : κ) :
    SameSpoken c' s (s.update c f) := by
  by_cases hc : c' = c
  · subst hc
    exact ⟨by rwa [Sockets.update_self], by rwa [Sockets.update_self]⟩
  · exact ⟨by rw [Sockets.update_of_ne s f hc], by rw [Sockets.update_of_ne s f hc]⟩

/-- Another connection's client is not concerned. -/
theorem SameSpoken.update_of_ne {s : Sockets κ} {c c' : κ} {f : Wire → Wire} (h : c' ≠ c) :
    SameSpoken c' s (s.update c f) :=
  ⟨by rw [Sockets.update_of_ne s f h], by rw [Sockets.update_of_ne s f h]⟩

end Changes

/-! ### What the server keeps -/

section Server

variable (peer : κ → Credentials) (server : UnixSocketServer)

/-- The reply the server owes a connection: that of the handler, or, where the handler must
not be called, the refusal. -/
def Due (s : Sockets κ) (c : κ) (reply : Reply) : Prop :=
  (∃ call ∈ s.calls, call.connection = c ∧ call.reply = reply) ∨
    (peer c).uid ≠ server.allowedUid ∧ reply = unauthorizedPeer

/-- A call of the handler that is due. -/
structure Handled (s : Sockets κ) (call : HandlerCall κ) : Prop where
  length : call.request.length ≤ kMaxMessageBytes
  request : frame call.request = (s.wires call.connection).up.read
  credentials : call.credentials = peer call.connection
  allowed : (peer call.connection).uid = server.allowedUid

structure Sound (s : Sockets κ) : Prop where
  untouched : ∀ c, (s.wires c).accepted = false → (s.wires c).up.read = [] ∧
    (s.wires c).down.total = [] ∧ ∀ call ∈ s.calls, call.connection ≠ c
  once : (s.calls.map (·.connection)).Nodup
  handled : ∀ call ∈ s.calls, Handled peer server s call
  answered : ∀ c, (s.wires c).down.total ≠ [] → ∃ reply, Due peer server s c reply ∧
    (replyMessage reply).length ≤ kMaxMessageBytes ∧
    (s.wires c).down.total <+: frame (replyMessage reply)

/-- What the server promises the clients. -/
def ServerGuarantee (s s' : Sockets κ) : Prop :=
  (Sound peer server s → Sound peer server s') ∧ ∀ c, SameSpoken c s s'

variable {peer server}

theorem Sound.of_same {s s' : Sockets κ} (h : Sound peer server s) (same : SameServed s s') :
    Sound peer server s' := by
  obtain ⟨haccepted, hread, hwritten, hcalls⟩ := same
  refine ⟨?_, ?_, ?_, ?_⟩
  · intro c hc
    rw [hread, hwritten, hcalls]
    exact h.untouched c (by rwa [← haccepted])
  · rw [hcalls]
    exact h.once
  · rw [hcalls]
    intro call hcall
    obtain ⟨hlength, hrequest, hcredentials, hallowed⟩ := h.handled call hcall
    exact ⟨hlength, by rwa [hread], hcredentials, hallowed⟩
  · intro c hc
    rw [hwritten] at hc ⊢
    obtain ⟨reply, hdue, hrest⟩ := h.answered c hc
    exact ⟨reply, by rwa [Due, hcalls], hrest⟩

theorem ServerGuarantee.refl (s : Sockets κ) : ServerGuarantee peer server s s :=
  ⟨id, fun c => .refl c s⟩

/-- The server has accepted the connection, and read `got` from it. -/
structure Receiving (peer : κ → Credentials) (server : UnixSocketServer) (c : κ) (got : Bytes)
    (s : Sockets κ) : Prop where
  sound : Sound peer server s
  accepted : (s.wires c).accepted = true
  read : (s.wires c).up.read = got
  silent : (s.wires c).down.total = []
  uncalled : ∀ call ∈ s.calls, call.connection ≠ c

/-- The server owes the connection this reply, and has written `sent` of it. -/
structure Replying (peer : κ → Credentials) (server : UnixSocketServer) (c : κ) (reply : Reply)
    (sent : Bytes) (s : Sockets κ) : Prop where
  sound : Sound peer server s
  accepted : (s.wires c).accepted = true
  due : Due peer server s c reply
  written : (s.wires c).down.total = sent

variable {c : κ}

theorem Receiving.of_same {got : Bytes} {s s' : Sockets κ} (h : Receiving peer server c got s)
    (same : SameServed s s') : Receiving peer server c got s' := by
  refine ⟨h.sound.of_same same, ?_, ?_, ?_, ?_⟩
  · rw [same.accepted, h.accepted]
  · rw [same.read, h.read]
  · rw [same.written, h.silent]
  · rw [same.calls]
    exact h.uncalled

theorem Replying.of_same {reply : Reply} {sent : Bytes} {s s' : Sockets κ}
    (h : Replying peer server c reply sent s) (same : SameServed s s') :
    Replying peer server c reply sent s' := by
  refine ⟨h.sound.of_same same, ?_, ?_, ?_⟩
  · rw [same.accepted, h.accepted]
  · rw [Due, same.calls]
    exact h.due
  · rw [same.written, h.written]

/-- Calling the handler with the message that was received. -/
theorem replying_handled {s : Sockets κ} {request : Bytes} {answer : Option Reply}
    (h : Receiving peer server c (frame request) s) (hlength : request.length ≤ kMaxMessageBytes)
    (hallowed : (peer c).uid = server.allowedUid) :
    Replying peer server c (answer.getD handlerError) []
      { s with calls := s.calls ++ [⟨c, request, peer c, answer⟩] } := by
  have hmem : (⟨c, request, peer c, answer⟩ : HandlerCall κ) ∈
      s.calls ++ [⟨c, request, peer c, answer⟩] := List.mem_append_right _ List.mem_cons_self
  refine ⟨⟨?_, ?_, ?_, ?_⟩, h.accepted, .inl ⟨_, hmem, rfl, rfl⟩, h.silent⟩
  · intro c' hc'
    obtain ⟨hread, hsilent, huncalled⟩ := h.sound.untouched c' hc'
    refine ⟨hread, hsilent, ?_⟩
    intro call hcall
    rcases List.mem_append.mp hcall with hcall | hcall
    · exact huncalled call hcall
    · rw [List.mem_singleton] at hcall
      subst hcall
      intro hc
      have haccepted : (s.wires c).accepted = false := by rw [show c = c' from hc]; exact hc'
      exact absurd (h.accepted.symm.trans haccepted) (by decide)
  · rw [List.map_append, List.nodup_append]
    refine ⟨h.sound.once, by simp, ?_⟩
    intro x hx y hy
    obtain ⟨call, hcall, rfl⟩ := List.mem_map.mp hx
    rw [List.map_singleton, List.mem_singleton] at hy
    rw [hy]
    exact h.uncalled call hcall
  · intro call hcall
    rcases List.mem_append.mp hcall with hcall | hcall
    · obtain ⟨hlength, hrequest, hcredentials, hallowed⟩ := h.sound.handled call hcall
      exact ⟨hlength, hrequest, hcredentials, hallowed⟩
    · rw [List.mem_singleton] at hcall
      subst hcall
      exact ⟨hlength, h.read.symm, rfl, hallowed⟩
  · intro c' hc'
    obtain ⟨reply, hdue, hrest⟩ := h.sound.answered c' hc'
    refine ⟨reply, hdue.imp_left ?_, hrest⟩
    rintro ⟨call, hcall, hc⟩
    exact ⟨call, List.mem_append_left _ hcall, hc⟩

section Steps

variable [DecidableEq κ]

/-- Reading from a connection nothing has been handled of yet. -/
theorem receiving_take {got : Bytes} {s : Sockets κ} (n : ℕ)
    (h : Receiving peer server c got s) :
    Receiving peer server c (got ++ (s.wires c).up.pending.take n)
      (s.update c (Wire.take n .server)) := by
  have hothers : ∀ c', c' ≠ c →
      (s.update c (Wire.take n .server)).wires c' = s.wires c' := fun c' hc =>
    Sockets.update_of_ne s _ hc
  refine ⟨⟨?_, h.sound.once, ?_, ?_⟩, ?_, ?_, ?_, h.uncalled⟩
  · intro c' hc'
    by_cases hc : c' = c
    · subst hc
      rw [Sockets.update_self] at hc'
      exact absurd (h.accepted.symm.trans hc') (by decide)
    · rw [hothers c' hc] at hc' ⊢
      exact h.sound.untouched c' hc'
  · intro call hcall
    obtain ⟨hlength, hrequest, hcredentials, hallowed⟩ := h.sound.handled call hcall
    refine ⟨hlength, ?_, hcredentials, hallowed⟩
    rwa [hothers _ (h.uncalled call hcall)]
  · intro c' hc'
    by_cases hc : c' = c
    · subst hc
      rw [Sockets.update_self] at hc'
      exact absurd h.silent hc'
    · rw [hothers c' hc] at hc' ⊢
      exact h.sound.answered c' hc'
  · rw [Sockets.update_self]
    exact h.accepted
  · rw [Sockets.update_self]
    show ((s.wires c).up.take n).read = _
    rw [Pipe.read_take, h.read]
  · rw [Sockets.update_self]
    exact h.silent

/-- Writing a part of the reply that is due. -/
theorem replying_put {reply : Reply} {sent bytes : Bytes} {s : Sockets κ}
    (hlength : (replyMessage reply).length ≤ kMaxMessageBytes)
    (h : Replying peer server c reply sent s)
    (hpart : sent ++ bytes <+: frame (replyMessage reply)) :
    Replying peer server c reply (sent ++ bytes) (s.update c (Wire.put bytes .server)) := by
  have hothers : ∀ c', c' ≠ c →
      (s.update c (Wire.put bytes .server)).wires c' = s.wires c' := fun c' hc =>
    Sockets.update_of_ne s _ hc
  have hwritten : ((s.update c (Wire.put bytes .server)).wires c).down.total = sent ++ bytes := by
    rw [Sockets.update_self]
    show ((s.wires c).down.put bytes).total = _
    rw [Pipe.total_put, h.written]
  refine ⟨⟨?_, h.sound.once, ?_, ?_⟩, ?_, h.due, hwritten⟩
  · intro c' hc'
    by_cases hc : c' = c
    · subst hc
      rw [Sockets.update_self] at hc'
      exact absurd (h.accepted.symm.trans hc') (by decide)
    · rw [hothers c' hc] at hc' ⊢
      exact h.sound.untouched c' hc'
  · intro call hcall
    obtain ⟨hlength, hrequest, hcredentials, hallowed⟩ := h.sound.handled call hcall
    refine ⟨hlength, ?_, hcredentials, hallowed⟩
    by_cases hc : call.connection = c
    · rw [hc, Sockets.update_self, ← hc]
      exact hrequest
    · rwa [hothers _ hc]
  · intro c' hc'
    by_cases hc : c' = c
    · subst hc
      exact ⟨reply, h.due, hlength, by rwa [hwritten]⟩
    · rw [hothers c' hc] at hc' ⊢
      exact h.sound.answered c' hc'
  · rw [Sockets.update_self]
    exact h.accepted

theorem reader_server (c : κ) :
    Reader SameServed (ServerGuarantee peer server) .server c (Receiving peer server c) where
  stable _ _ _ h same := h.of_same same
  idle _ s _ := .refl s
  takes got s n h := by
    have hnext := receiving_take n h
    refine ⟨⟨fun _ => hnext.sound, ?_⟩, hnext⟩
    exact SameSpoken.update (Pipe.total_take (s.wires c).up n) rfl

theorem writer_server (c : κ) (reply : Reply)
    (hlength : (replyMessage reply).length ≤ kMaxMessageBytes) :
    Writer SameServed (ServerGuarantee peer server) .server c (frame (replyMessage reply))
      (Replying peer server c reply) where
  stable _ _ _ h same := h.of_same same
  idle _ s _ := .refl s
  puts sent s bytes h hpart := by
    have hnext := replying_put hlength h hpart
    exact ⟨⟨fun _ => hnext.sound, SameSpoken.update rfl rfl⟩, hnext⟩

/-- Accepting a connection. -/
theorem receiving_accept {s : Sockets κ} (h : Sound peer server s)
    (hnew : (s.wires c).accepted = false) :
    Receiving peer server c [] (s.update c fun w => { w with accepted := true }) := by
  obtain ⟨hread, hsilent, huncalled⟩ := h.untouched c hnew
  have hothers : ∀ c', c' ≠ c →
      (s.update c fun w => { w with accepted := true }).wires c' = s.wires c' := fun c' hc =>
    Sockets.update_of_ne s _ hc
  refine ⟨⟨?_, h.once, ?_, ?_⟩, ?_, ?_, ?_, huncalled⟩
  · intro c' hc'
    by_cases hc : c' = c
    · subst hc
      rw [Sockets.update_self] at hc'
      cases hc'
    · rw [hothers c' hc] at hc' ⊢
      exact h.untouched c' hc'
  · intro call hcall
    obtain ⟨hlength, hrequest, hcredentials, hallowed⟩ := h.handled call hcall
    refine ⟨hlength, ?_, hcredentials, hallowed⟩
    rwa [hothers _ (huncalled call hcall)]
  · intro c' hc'
    by_cases hc : c' = c
    · subst hc
      rw [Sockets.update_self] at hc'
      exact absurd hsilent hc'
    · rw [hothers c' hc] at hc' ⊢
      exact h.answered c' hc'
  · rw [Sockets.update_self]
  · rw [Sockets.update_self]
    exact hread
  · rw [Sockets.update_self]
    exact hsilent

/-! ### The server's programs -/

/-- Whatever becomes of the server, it keeps its promises. -/
abbrev ServerKeeps (peer : κ → Credentials) (server : UnixSocketServer) (p : SocketProg κ)
    (s : Sockets κ) : Prop :=
  p.Guarantees (socketWorld peer) SameServed (ServerGuarantee peer server) (fun _ _ => True) s

theorem keeps_idle {o : SocketCall κ} {k : (socketCalls κ).Answer o → SocketProg κ}
    {s : Sockets κ} (hs : Sound peer server s)
    (same : ∀ s a s', socketAnswers peer o s a s' → s' = s)
    (h : ∀ a s, Sound peer server s → ServerKeeps peer server (k a) s) :
    ServerKeeps peer server (sock o k) s :=
  guarantees_idle hs (fun _ _ hs same => hs.of_same same) (fun s _ => .refl s) same h

theorem keeps_done {r : Outcome} {s : Sockets κ} :
    ServerKeeps peer server (.done r) s := fun _ _ => trivial

theorem keeps_sendReply {reply : Reply} (fuel : ℕ) {k : SocketProg κ} {s : Sockets κ}
    (hk : ∀ s, Sound peer server s → ServerKeeps peer server k s)
    (hs : Replying peer server c reply [] s) :
    ServerKeeps peer server (sendMessage .server c fuel (replyMessage reply) fun _ => k) s :=
  guarantees_sendMessage (writer_server c reply) (fun _ => trivial) fuel
    (fun s hs => hk s hs.sound) (fun _ s hs => hk s hs.sound) hs

theorem keeps_handleClient (fuel : ℕ) {k : SocketProg κ} {s : Sockets κ}
    (hk : ∀ s, Sound peer server s → ServerKeeps peer server k s)
    (hs : Receiving peer server c [] s) :
    ServerKeeps peer server (server.handleClient fuel c k) s := by
  refine (reader_server c).guarantees_receiveMessage (fun _ => trivial) fuel ?_
    (fun _ s hs => hk s hs.sound) hs
  intro request s hlength hs
  refine guarantees_call hs (fun _ _ hs same => hs.of_same same) ?_
  rintro s credentials s' hs ⟨hcredentials, rfl⟩
  refine ⟨.refl s', ?_⟩
  rcases hcredentials with rfl | rfl
  · exact hk s' hs.sound
  show ServerKeeps peer server (if (peer c).uid ≠ server.allowedUid then
      sendMessage .server c fuel (replyMessage unauthorizedPeer) fun _ => k
    else
      sock (.handler c request (peer c)) fun answer =>
        sendMessage .server c fuel (replyMessage (answer.getD handlerError)) fun _ => k) s'
  by_cases hallowed : (peer c).uid = server.allowedUid
  · rw [if_neg (not_not_intro hallowed)]
    refine guarantees_call hs (fun _ _ hs same => hs.of_same same) ?_
    rintro s answer s' hs rfl
    have hnext := @replying_handled κ peer server c s request answer hs hlength hallowed
    exact ⟨⟨fun _ => hnext.sound, fun c' => ⟨rfl, rfl⟩⟩, keeps_sendReply fuel hk hnext⟩
  · rw [if_pos hallowed]
    exact keeps_sendReply fuel hk ⟨hs.sound, hs.accepted, .inr ⟨hallowed, rfl⟩, hs.silent⟩

theorem keeps_serve (fuel rounds : ℕ) {s : Sockets κ} (hs : Sound peer server s) :
    ServerKeeps peer server (server.serve fuel rounds) s := by
  induction rounds generalizing s with
  | zero => exact keeps_done
  | succ rounds ih =>
    refine keeps_idle hs (fun _ _ _ ha => ha) ?_
    intro stop s hs
    cases stop with
    | true => exact keeps_idle hs (fun _ _ _ ha => ha) fun _ _ _ => keeps_done
    | false =>
      refine keeps_idle hs (fun _ _ _ ha => ha) ?_
      intro readable s hs
      cases readable with
      | false => exact ih hs
      | true =>
        refine guarantees_call hs (fun _ _ hs same => hs.of_same same) ?_
        rintro s next s' hs (⟨rfl, rfl⟩ | ⟨c, rfl, -, hnew, rfl⟩)
        · exact ⟨.refl s', ih hs⟩
        · have hnext := receiving_accept hs hnew
          refine ⟨⟨fun _ => hnext.sound, SameSpoken.update rfl rfl⟩, ?_⟩
          refine keeps_handleClient fuel ?_ hnext
          intro s hs
          exact keeps_idle hs (fun _ _ _ ha => ha) fun _ s hs => ih hs

theorem keeps_abandon {s : Sockets κ} (hs : Sound peer server s) :
    ServerKeeps peer server UnixSocketServer.abandon s := by
  refine keeps_idle hs (fun _ _ _ ha => ha) fun _ s hs => ?_
  exact keeps_idle hs (fun _ _ _ ha => ha) fun _ _ _ => keeps_done

theorem keeps_setUpEach (steps : List SetupStep) {k : SocketProg κ} {s : Sockets κ}
    (hk : ∀ s, Sound peer server s → ServerKeeps peer server k s) (hs : Sound peer server s) :
    ServerKeeps peer server (UnixSocketServer.setUpEach steps k) s := by
  induction steps generalizing s with
  | nil => exact hk s hs
  | cons step steps ih =>
    refine keeps_idle hs (fun _ _ _ ha => ha) ?_
    intro done s hs
    cases done with
    | true => exact ih hs
    | false => exact keeps_abandon hs

/-- The server keeps its promises whatever the clients do. -/
theorem guarantees_run (fuel rounds : ℕ) {s : Sockets κ} (hs : Sound peer server s) :
    ServerKeeps peer server (server.run fuel rounds) s := by
  refine keeps_idle hs (fun _ _ _ ha => ha) ?_
  intro made s hs
  cases made with
  | false => exact keeps_done
  | true =>
    refine keeps_idle hs (fun _ _ _ ha => ha) fun _ s hs => ?_
    refine keeps_idle hs (fun _ _ _ ha => ha) ?_
    intro created s hs
    cases created with
    | false => exact keeps_done
    | true =>
      show ServerKeeps peer server (if !makeAddress server.socketPath then
        UnixSocketServer.abandon
        else UnixSocketServer.setUpEach [.bind, .chmod, .listen] (server.serve fuel rounds)) s
      by_cases haddress : makeAddress server.socketPath = true
      · rw [haddress]
        exact keeps_setUpEach _ (fun s hs => keeps_serve fuel rounds hs) hs
      · rw [Bool.eq_false_iff.mpr haddress]
        exact keeps_abandon hs

end Steps

end Server

end Uhf.Privileged
