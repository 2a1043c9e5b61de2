import PhoenixChannels.System.Lemmas.Exchanges
import PhoenixChannels.System.Lemmas.Moments
import PhoenixChannels.System.Lemmas.SendOrder
import PhoenixChannels.System.Lemmas.Serving
import PhoenixChannels.System.Theorems

/-!
# What callers are told

What a caller can rely on when its call has returned: which reply of the server a result comes from,
and which errors it can meet at all; in which order what it sends is written; and that its call on the
socket needs no help from the server, the clock or other users to come to its end.
-/

namespace PhoenixChannels

open Socket (Exchange uuid₂ uuid₃ lobbyReference okReply)

/-- The reply that a call has returned: its channel, what it sent, and what came back. -/
def Operation.replied? (op : Operation) :
    Option (JoinReference × EventPayload × ReplyStatus × Payload) :=
  match op.request, op.phase with
  | .channelCall c eventPayload _, .returned (.ok (some payload)) =>
      some (c, eventPayload, .ok, payload)
  | .channelCall c eventPayload _, .returned (.error (.call (.reply payload))) =>
      some (c, eventPayload, .error, payload)
  | _, _ => none

/-- The reply that a join has returned. -/
def Operation.joinReplied? (op : Operation) : Option (JoinReference × ReplyStatus × Payload) :=
  match op.request, op.phase with
  | .channelJoin c _, .returned (.ok (some payload)) => some (c, .ok, payload)
  | .channelJoin c _, .returned (.error (.join (.rejected payload))) => some (c, .error, payload)
  | _, _ => none

/-- What a call can return: its own kind of value, and the errors that its callers can meet. -/
def Request.mayReturn : Request → ApiResult → Bool
  | channelJoin _ _, .ok value | channelCall _ _ _, .ok value => value.isSome
  | _, .ok value => value.isNone
  | request, .error (.socketShutdown _) => request.channel?.isNone
  | request, .error (.channelShutdown _) => request.channel?.isSome
  | request, .error .timeout => request.timeout?.isSome
  | connect _, .error (.connect (.webSocket _)) | connect _, .error (.connect .timeout)
    | connect _, .error (.connect (.waitingToReconnect _)) => true
  | channelJoin _ _, .error (.join .shutdown) => false
  | channelJoin _ _, .error (.join _) => true
  | channelCall _ _ _, .error (.call (.reply _)) | channelCall _ _ _, .error (.call .socketDisconnected)
    | channelCall _ _ _, .error (.call (.webSocketError _)) => true
  | channelLeave _, .error (.leave (.webSocketError _)) | channelLeave _, .error (.leave .shuttingDown)
    | channelLeave _, .error (.leave (.socketShutdown _))
    | channelLeave _, .error (.leave .joinBeforeLeft) => true
  | _, _ => false

namespace System

open Machine

variable {strategy : Option (Nat → Duration)} {s : System} {ok : System → Label → Prop}
variable {ls : List Label} {c : JoinReference} {tx : TxId} {i : Nat} {op : Operation}
variable {eventPayload : EventPayload} {status : ReplyStatus} {payload : Payload}

/-- The frame of a call of the channel was written, and its reply was read later on the same
connection. -/
def CallExchanged (s : System) (sent answered : Nat) (c : JoinReference)
    (eventPayload : EventPayload) (status : ReplyStatus) (payload : Payload) : Prop :=
  ∃ w reply, s.channels.lookup c = some w ∧ reply.key = ⟨w.listener.topic, c⟩ ∧
    reply.status = status ∧ reply.payload = payload ∧
    Exchange s.socket.trace sent answered
      (.push { topic := w.listener.topic, eventPayload, joinReference := c,
               reference := some reply.reference }) reply

/-- Each call that returned a reply was exchanged, in a frame of its own and with a reply of its own. -/
def CallsExchanged (s : System) : Prop :=
  ∃ sent answered : Nat → Nat,
    (∀ i op c eventPayload status payload, s.operations[i]? = some op →
      op.replied? = some (c, eventPayload, status, payload) →
      CallExchanged s (sent i) (answered i) c eventPayload status payload) ∧
    ∀ i j op op', s.operations[i]? = some op → s.operations[j]? = some op' →
      op.replied?.isSome = true → op'.replied?.isSome = true → i ≠ j →
      sent i ≠ sent j ∧ answered i ≠ answered j

/-- A join of the channel, with its own payload, was written, and a reply for the channel was read
later on the same connection. -/
def JoinExchanged (s : System) (c : JoinReference) (status : ReplyStatus) (payload : Payload) : Prop :=
  ∃ w reply sent answered reference, s.channels.lookup c = some w ∧
    reply.key = ⟨w.listener.topic, c⟩ ∧ reply.status = status ∧ reply.payload = payload ∧
    Exchange s.socket.trace sent answered
      (.push { topic := w.listener.topic, joinReference := c, reference := some reference,
               eventPayload := ⟨.phoenix .join, w.listener.payload⟩ }) reply

/-! ## Replies -/

/-- The sender `tx` came with the call that wrote the frame, and got the reply that was read. -/
structure CallAnswered (s : System) (tx : TxId) (sent answered : Nat) : Prop where
  sender : ∃ e k uuid, (s.socket.trace)[sent]? = some e ∧
    e.input = .channelSendCommand (.call k) uuid (.ok ()) ∧ k.replyTx = tx
  reader : ∃ e result, (s.socket.trace)[answered]? = some e ∧
    e.effects = [.replyTx tx result]

theorem replied_cases (h : op.replied? = some (c, eventPayload, status, payload)) :
    ∃ timeout result, op.request = .channelCall c eventPayload timeout ∧
      op.phase = .returned result ∧
      ((result = .ok (some payload) ∧ status = .ok) ∨
        (result = .error (.call (.reply payload)) ∧ status = .error)) := by
  unfold Operation.replied? at h
  split at h
  · cases h
    exact ⟨_, _, ‹_›, ‹_›, .inl ⟨rfl, rfl⟩⟩
  · cases h
    exact ⟨_, _, ‹_›, ‹_›, .inr ⟨rfl, rfl⟩⟩
  · cases h

theorem joinReplied_cases (h : op.joinReplied? = some (c, status, payload)) :
    ∃ timeout result, op.request = .channelJoin c timeout ∧ op.phase = .returned result ∧
      ((result = .ok (some payload) ∧ status = .ok) ∨
        (result = .error (.join (.rejected payload)) ∧ status = .error)) := by
  unfold Operation.joinReplied? at h
  split at h
  · cases h
    exact ⟨_, _, ‹_›, ‹_›, .inl ⟨rfl, rfl⟩⟩
  · cases h
    exact ⟨_, _, ‹_›, ‹_›, .inr ⟨rfl, rfl⟩⟩
  · cases h

theorem mem_trace_of_visible {effect : Socket.Effect} (h : effect ∈ s.visible) :
    ∃ (n : Nat) (e : Socket.Entry), (s.socket.trace)[n]? = some e ∧ effect ∈ e.effects := by
  obtain ⟨e, he, hmem⟩ := List.mem_flatMap.mp (List.mem_of_mem_take h)
  obtain ⟨n, hn⟩ := List.mem_iff_getElem?.mp he
  exact ⟨n, e, hn, hmem⟩

theorem callExchanged_of_run (h : Run (machine strategy) ok init ls s)
    (hop : s.operations[i]? = some op)
    (hreplied : op.replied? = some (c, eventPayload, status, payload)) :
    ∃ tx sent answered, (tx, .request i op.request) ∈ makings ((machine strategy).steps init ls) ∧
      CallAnswered s tx sent answered ∧
      CallExchanged s sent answered c eventPayload status payload := by
  obtain ⟨timeout, result, hrequest, hphase, hresult⟩ := replied_cases hreplied
  have houtcome := outcome_of_run h hop hphase
  rw [hrequest] at houtcome ⊢
  cases houtcome with
  | @answered tx result hmade ha =>
      generalize hcall : Request.channelCall c eventPayload timeout = request at ha
      cases ha with
      | @call c' eventPayload' timeout' result' hmem =>
          cases hcall
          obtain ⟨n, e, he, heffect⟩ := mem_trace_of_visible hmem
          obtain ⟨ks, hks⟩ := socket_run h
          have hresult' : (result' = .ok payload ∧ status = .ok) ∨
              (result' = .error (.reply payload) ∧ status = .error) := by
            rcases result' with error | payload'
            · rcases hresult with ⟨hresult, _⟩ | ⟨hresult, rfl⟩ <;> cases hresult
              exact .inr ⟨rfl, rfl⟩
            · rcases hresult with ⟨hresult, rfl⟩ | ⟨hresult, _⟩ <;> cases hresult
              exact .inl ⟨rfl, rfl⟩
          have hresolves : (Socket.Effect.replyTx tx result').resolves? = some (.call tx) := by
            rcases hresult' with ⟨rfl, _⟩ | ⟨rfl, _⟩ <;> rfl
          obtain ⟨m, k, uuid, r, rfl, hexchange, hid, heffects, ⟨e₀, he₀, hinput⟩, hreply⟩ :=
            Socket.exchange_of_reply hks he heffect hresolves
          -- the command was made for this call
          have htaken : s.Uses k.replyTx (.channel k.joinReference (.call k.eventPayload)) :=
            .taken (Socket.mem_takenUses (List.mem_of_getElem? he₀) (by rw [hinput]; rfl))
          obtain ⟨purpose, hmade', hsuits⟩ := purpose_of_run h htaken
          cases (made_of_run h).unique hmade hmade'
          obtain ⟨w, hw, htopic⟩ := call_of_run h
            (mem_channelCommands (List.mem_of_getElem? he₀) (by rw [hinput]; rfl))
          have hid : (⟨k.key, Reference.new uuid⟩ : PushId) = ⟨r.key, r.reference⟩ :=
            Option.some.inj hid
          obtain ⟨hkey, href⟩ := PushId.mk.inj hid
          rcases k with ⟨topic, joinReference, eventPayload', replyTx⟩
          cases hsuits
          refine ⟨_, m, n, hmade, ⟨⟨e₀, _, uuid, he₀, hinput, rfl⟩, e, result', he, heffects⟩,
            w, r, hw, ?_, ?_, ?_, ?_⟩
          · rw [← hkey, Call.key, htopic]
          · rcases hresult' with ⟨rfl, rfl⟩ | ⟨rfl, rfl⟩ <;> cases hstatus : r.status <;>
              rw [hstatus] at hreply <;> first | rfl | cases hreply
          · rcases hresult' with ⟨rfl, rfl⟩ | ⟨rfl, rfl⟩ <;> cases hstatus : r.status <;>
              rw [hstatus] at hreply <;> cases hreply <;> rfl
          · rw [← href, ← htopic]
            exact hexchange
      | _ => cases hcall
  | cast hcast => cases hcast
  | shutdown hshutdown => cases hshutdown
  | timeout | socketEnded | channelEnded =>
      rcases hresult with ⟨hresult, _⟩ | ⟨hresult, _⟩ <;> cases hresult

/-- Every call that returned a reply had a frame of its own written, with what it sent, and returned
the status and the payload of a reply to that frame, which was read later on the same connection and
given to no other call. -/
theorem callsExchange (h : Run (machine strategy) ok init ls s) : CallsExchanged s := by
  have exchanged : ∀ i, ∃ tx sent answered, ∀ op c eventPayload status payload,
      s.operations[i]? = some op → op.replied? = some (c, eventPayload, status, payload) →
      (tx, .request i op.request) ∈ makings ((machine strategy).steps init ls) ∧
        CallAnswered s tx sent answered ∧
        CallExchanged s sent answered c eventPayload status payload := by
    intro i
    by_cases hreplied : ∃ op c eventPayload status payload, s.operations[i]? = some op ∧
        op.replied? = some (c, eventPayload, status, payload)
    · obtain ⟨op, c, eventPayload, status, payload, hop, hreply⟩ := hreplied
      obtain ⟨tx, sent, answered, hspec⟩ := callExchanged_of_run h hop hreply
      refine ⟨tx, sent, answered, fun op' c' eventPayload' status' payload' hop' hreply' => ?_⟩
      cases hop.symm.trans hop'
      cases hreply.symm.trans hreply'
      exact hspec
    · refine ⟨0, 0, 0, fun op c eventPayload status payload hop hreply => ?_⟩
      exact absurd ⟨op, c, eventPayload, status, payload, hop, hreply⟩ hreplied
  choose tx sent answered hspec using exchanged
  refine ⟨sent, answered, fun i op c eventPayload status payload hop hreply =>
    (hspec i op c eventPayload status payload hop hreply).2.2, ?_⟩
  intro i j op op' hop hop' hreply hreply' hne
  obtain ⟨⟨c, eventPayload, status, payload⟩, hreply⟩ := Option.isSome_iff_exists.mp hreply
  obtain ⟨⟨c', eventPayload', status', payload'⟩, hreply'⟩ := Option.isSome_iff_exists.mp hreply'
  obtain ⟨hmade, hanswered, _⟩ := hspec i op c eventPayload status payload hop hreply
  obtain ⟨hmade', hanswered', _⟩ := hspec j op' c' eventPayload' status' payload' hop' hreply'
  have htx : tx i ≠ tx j := by
    intro heq
    rw [heq] at hmade
    exact hne (Purpose.request.inj ((made_of_run h).unique hmade hmade')).1
  constructor
  · intro heq
    obtain ⟨e, k, uuid, he, hinput, hk⟩ := hanswered.sender
    obtain ⟨e', k', uuid', he', hinput', hk'⟩ := hanswered'.sender
    cases (heq ▸ he).symm.trans he'
    cases hinput.symm.trans hinput'
    exact htx (hk.symm.trans hk')
  · intro heq
    obtain ⟨e, result, he, heffects⟩ := hanswered.reader
    obtain ⟨e', result', he', heffects'⟩ := hanswered'.reader
    cases (heq ▸ he).symm.trans he'
    have hsame := heffects.symm.trans heffects'
    simp only [List.cons.injEq, Socket.Effect.replyTx.injEq, and_true] at hsame
    exact htx hsame.1

/-- A user calls the lobby, and the server replies to it. -/
def callLobby : List Label :=
  joinedLobby ++ call 3 (.channelCall lobbyReference shout 5000000000) ++ pollLobby 5
    ++ forwardLobby ++ handle (.channelSendCommand uuid₂ (.ok ())) 1
    ++ handle (.socketResult (.ok (okReply uuid₂)) (.ok ())) 1 ++ [.advance 3]

theorem callsExchange_callLobby :
    ∃ s, Run (machine none) Free init callLobby s ∧
      (s.operations[3]?.bind Operation.replied?).map (fun reply => (reply.1, reply.2.2.1)) =
        some (lobbyReference, .ok) ∧ CallsExchanged s := by
  obtain ⟨s, hrun, hs⟩ := exists_run (M := machine none)
    (show (Machine.exec _ Free init callLobby).map (fun s =>
      (s.operations[3]?.bind Operation.replied?).map (fun reply => (reply.1, reply.2.2.1))) =
        some (some (lobbyReference, .ok)) by decide +kernel)
  exact ⟨s, hrun, hs, callsExchange hrun⟩

/-! ## Joins -/

/-- Every join that returned the server's answer returned the status and the payload of a reply for its
channel, which was read after a join of the channel was written on the same connection. -/
theorem joinsExchange (h : Run (machine strategy) ok init ls s)
    (hop : s.operations[i]? = some op)
    (hreplied : op.joinReplied? = some (c, status, payload)) : JoinExchanged s c status payload := by
  obtain ⟨timeout, result, hrequest, hphase, hresult⟩ := joinReplied_cases hreplied
  have houtcome := outcome_of_run h hop hphase
  rw [hrequest] at houtcome
  cases houtcome with
  | @answered tx result hmade ha =>
      generalize hjoin : Request.channelJoin c timeout = request at ha
      cases ha with
      | @join c' timeout' w result' hw hmem =>
          cases hjoin
          have hreply : (status, payload) ∈ w.replies := by
            refine List.mem_append_right _ (List.mem_filterMap.mpr ⟨_, hmem, ?_⟩)
            rcases result' with error | payload'
            · rcases hresult with ⟨hresult, _⟩ | ⟨hresult, rfl⟩ <;> cases hresult
              rfl
            · rcases hresult with ⟨hresult, rfl⟩ | ⟨hresult, _⟩ <;> cases hresult
              rfl
          obtain ⟨tx', command, result, hmade', href, hmem', hresult'⟩ :=
            joinReplied_of_run h hw hreply
          obtain ⟨n, e, he, heffect⟩ := mem_trace_of_visible hmem'
          obtain ⟨ks, hks⟩ := socket_run h
          have hresolves : (Socket.Effect.joinedTx tx' result).resolves? = some (.join tx') := by
            rcases result with error | receivers
            · cases error <;> first | rfl | cases hresult'
            · rfl
          obtain ⟨m, join, uuid, r, rfl, hexchange, hkey, ⟨e₀, he₀, hinput⟩, hreply⟩ :=
            Socket.exchange_of_join hks he heffect hresolves
          have htaken : s.Uses join.joinedTx (.command (.join join)) :=
            .taken (Socket.mem_takenUses (List.mem_of_getElem? he₀) (by rw [hinput]; rfl))
          obtain ⟨purpose, hmade'', hsuits⟩ := purpose_of_run h htaken
          cases hsuits
          cases (made_of_run h).unique hmade' hmade''
          obtain ⟨w', hw', htopic, hpayload⟩ := join_of_run h
            (mem_channelCommands (List.mem_of_getElem? he₀) (by rw [hinput]; rfl))
          rcases join with ⟨topic, joinReference, joinPayload, deadline, joinedTx⟩
          cases href
          refine ⟨w', r, m, n, Reference.new uuid, hw', ?_, ?_, ?_, ?_⟩
          · rw [← hkey, Join.key, htopic]
            rfl
          · rcases hreply with ⟨hstatus, receivers, rfl, _⟩ | ⟨hstatus, rfl⟩ <;>
              cases hresult' <;> exact hstatus
          · rcases hreply with ⟨hstatus, receivers, rfl, hpayload⟩ | ⟨hstatus, rfl⟩ <;>
              cases hresult'
            · exact hpayload.symm
            · rfl
          · rw [← htopic, ← hpayload]
            exact hexchange
      | _ => cases hjoin
  | cast hcast => cases hcast
  | shutdown hshutdown => cases hshutdown
  | timeout | socketEnded | channelEnded =>
      rcases hresult with ⟨hresult, _⟩ | ⟨hresult, _⟩ <;> cases hresult

theorem joinsExchange_joinedLobby :
    ∃ s payload, Run (machine none) Free init joinedLobby s ∧
      JoinExchanged s lobbyReference .ok payload := by
  obtain ⟨s, hrun, hs⟩ := exists_run (M := machine none)
    (show (Machine.exec _ Free init joinedLobby).map (fun s =>
      (s.operations[2]?.bind Operation.joinReplied?).map (fun reply => (reply.1, reply.2.1))) =
        some (some (lobbyReference, .ok)) by decide +kernel)
  obtain ⟨⟨c, status, payload⟩, hreplied, hreply⟩ := Option.map_eq_some_iff.mp hs
  cases hreply
  obtain ⟨op, hop, hreplied⟩ := Option.bind_eq_some_iff.mp hreplied
  exact ⟨s, payload, hrun, joinsExchange hrun hop hreplied⟩

/-! ## Errors -/

/-- A call returns nothing but what its kind of call can return. -/
theorem errorsKnown {result : ApiResult} (h : Run (machine strategy) ok init ls s)
    (hop : s.operations[i]? = some op) (hphase : op.phase = .returned result) :
    op.request.mayReturn result = true := by
  have houtcome := outcome_of_run h hop hphase
  obtain ⟨ks, hks⟩ := socket_run h
  cases houtcome with
  | answered hmade ha =>
      generalize op.request = request at ha
      cases ha with
      | @connect timeout result hmem =>
          have hknown := Socket.known_of_run hks _ (List.mem_of_mem_take hmem)
          cases result with
          | ok => rfl
          | error error => cases error <;> first | rfl | cases hknown
      | disconnect | channel => rfl
      | @join c timeout w result hw hmem =>
          have hknown := answersKnown_of_run h hw _ hmem
          cases result with
          | ok => rfl
          | error error => cases error <;> first | rfl | cases hknown
      | @leave c w result hw hmem =>
          have hknown := answersKnown_of_run h hw _ hmem
          cases result with
          | ok => rfl
          | error error => cases error <;> first | rfl | cases hknown
      | @call c eventPayload timeout result hmem =>
          have hknown := Socket.known_of_run hks _ (List.mem_of_mem_take hmem)
          cases result with
          | ok => rfl
          | error error => cases error <;> first | rfl | cases hknown
  | cast hcast =>
      rw [hcast]
      rfl
  | timeout htimeout =>
      cases hrequest : op.request <;> rw [hrequest] at htimeout <;> first | rfl | cases htimeout
  | shutdown hshutdown =>
      cases hrequest : op.request <;> rw [hrequest] at hshutdown <;> first | rfl | cases hshutdown
  | socketEnded hsocket =>
      cases hrequest : op.request <;> rw [hrequest] at hsocket <;> first | rfl | cases hsocket
  | channelEnded hchannel =>
      cases hrequest : op.request <;> rw [hrequest] at hchannel <;> first | rfl | cases hchannel

/-- The cast of a lobby that was shut down returns why the lobby ended. -/
theorem errorsKnown_shutDownLobby :
    ∃ s op result, Run (machine none) Free init
        (shutDownLobby ++ [castLate, .advance 5, .advance 5]) s ∧
      s.operations[5]? = some op ∧ op.phase = .returned result ∧
      op.request.mayReturn result = true := by
  obtain ⟨s, hrun, hs⟩ := exists_run (M := machine none)
    (show (Machine.exec _ Free init (shutDownLobby ++ [castLate, .advance 5, .advance 5])).map
      (fun s => s.operations[5]?.map (fun op => op.phase.isError)) =
        some (some true) by decide +kernel)
  obtain ⟨op, hop, herror⟩ := Option.map_eq_some_iff.mp hs
  cases hphase : op.phase with
  | returned result => exact ⟨s, op, result, hrun, hop, hphase, errorsKnown hrun hop hphase⟩
  | _ =>
      rw [hphase] at herror
      cases herror

/-! ## Order -/

/-- The casts and calls of a channel are taken by the socket listener in the order in which callers
have queued them, with what they send, and none is left out. As long as both listeners run, those
that were not taken are still on their way. Those that were taken are written in that order, but for
failed writes and the one that the listener has panicked over. -/
structure SendsInOrder (c : JoinReference) (past : List (System × Label)) (s : System) : Prop where
  distinct : ((accepted c past).map Prod.fst).Nodup
  taken : Socket.sendings c s.socket.trace <+: accepted c past
  kept : s.socket.task.isRunning = true → s.listenerEnded (some c) = false →
    Socket.sendings c s.socket.trace ++ s.sendings c = accepted c past
  written : (Socket.sent c s.socket.effects).Sublist (Socket.sendings c s.socket.trace)
  allWritten : s.socket.task.isRunning = true →
    Socket.sent c s.socket.effects = s.socket.trace.filterMap fun e => e.input.sent? c

/-- Across all losses of the connection, each channel has its casts and calls written in order. -/
theorem sendsInOrder (h : Run (machine strategy) ok init ls s) :
    SendsInOrder c ((machine strategy).steps init ls) s := by
  have hconveyed := conveyed_of_run h (c := c)
  obtain ⟨ks, hks⟩ := socket_run h
  have hwritten := Socket.writesTaken_of_run hks (c := c)
  constructor
  · exact (accepted_sublist _).nodup (made_of_run h).once
  · exact fed_eq_accepted _ ▸ hconveyed.taken
  · intro hrunning hended
    rw [← fed_eq_accepted]
    refine hconveyed.kept ?_ ?_
    · simpa [sendConveyor] using hrunning
    · simpa [sendConveyor] using hended
  · exact hwritten.onlyTaken
  · exact hwritten.all

/-- A user casts and then calls on the lobby. -/
def castThenCall : List Label :=
  joinedLobby ++ call 3 (.channelCast lobbyReference shout)
    ++ call 4 (.channelCall lobbyReference shout 5000000000)
    ++ pollLobby 5 ++ forwardLobby ++ pollLobby 5 ++ forwardLobby
    ++ handle (.channelSendCommand uuid₂ (.ok ())) 1 ++ handle (.channelSendCommand uuid₃ (.ok ())) 1

theorem sendsInOrder_castThenCall :
    ∃ s, Run (machine none) Free init castThenCall s ∧
      (Socket.sent lobbyReference s.socket.effects).map Prod.fst = [4, 5] ∧
      SendsInOrder lobbyReference ((machine none).steps init castThenCall) s := by
  obtain ⟨s, hrun, hs⟩ := exists_run (M := machine none)
    (show (Machine.exec _ Free init castThenCall).map
      (fun s => (Socket.sent lobbyReference s.socket.effects).map Prod.fst) = some [4, 5]
      by decide +kernel)
  exact ⟨s, hrun, hs, sendsInOrder hrun⟩

/-! ## Effect -/

/-- Whoever is told that a socket or a channel has become what he asked it to become is told of a moment
within his call at which it was so. -/
theorem operationsTakeEffect {payload : Option Payload} (h : Run (machine strategy) ok init ls s)
    (hop : s.operations[i]? = some op) (hphase : op.phase = .returned (.ok payload))
    (hchanges : op.request.changes = true) : TakesEffect strategy ls i op.request :=
  takesEffect_of_run h hop hphase hchanges

/-- A call that asked for a change, and succeeded. -/
def changed (op : Operation) : Bool :=
  match op.phase with
  | .returned (.ok _) => op.request.changes
  | _ => false

theorem operationsTakeEffect_joinedLobby :
    ∃ s op, Run (machine none) Free init joinedLobby s ∧ s.operations[2]? = some op ∧
      op.request.channel? = some lobbyReference ∧ TakesEffect none joinedLobby 2 op.request := by
  obtain ⟨s, hrun, hs⟩ := exists_run (M := machine none)
    (show (Machine.exec _ Free init joinedLobby).map (fun s =>
      s.operations[2]?.map fun op => (changed op, op.request.channel?)) =
        some (some (true, some lobbyReference)) by decide +kernel)
  obtain ⟨op, hop, hs⟩ := Option.map_eq_some_iff.mp hs
  obtain ⟨hchanged, hchannel⟩ := Prod.mk.inj hs
  unfold changed at hchanged
  split at hchanged
  · exact ⟨s, op, hrun, hop, hchannel, operationsTakeEffect hrun hop ‹_› hchanged⟩
  · cases hchanged

/-! ## Progress -/

/-- Whatever has happened, a connect, a disconnect or a shutdown of the socket can come to its end by
steps that serve it, unless the socket listener waits on a full push queue and the channel listener
of that queue comes to wait on the socket listener. -/
theorem socketCallsFinish (h : Run (machine strategy) Free init ls s)
    (hop : s.operations[i]? = some op) (hasks : op.request.asksSocket = true) :
    ∃ ks t, Run (machine strategy) (fun _ l => l.serves i = true) s ks t ∧
      (t.Finished i ∨ t.socket = s.socket ∧ ¬ NoCyclicWait t) := by
  obtain ⟨ks, t, hks, ⟨hsocket, hcyclic⟩ | htask⟩ := exists_unsuspended (i := i) h
  · exact ⟨ks, t, hks, .inr ⟨hsocket, hcyclic⟩⟩
  obtain ⟨op', hop', hrequest, _⟩ := operation_of_run hks hop
  obtain ⟨us, u, hu, hfinished⟩ :=
    finishes_unsuspended (h.trans hks.free) htask hop' (by rw [hrequest, hasks])
  exact ⟨_, u, hks.trans hu, .inl hfinished⟩

/-- A disconnect begins while the socket listener waits on the full push queue of the lobby. -/
theorem socketCallsFinish_fillPushes :
    ∃ s op, Run (machine none) Free init (fillPushes ++ call 3 .disconnect) s ∧
      s.operations[3]? = some op ∧ op.request.asksSocket = true ∧
        ∃ ks t, Run (machine none) (fun _ l => l.serves 3 = true) s ks t ∧
          (t.Finished 3 ∨ t.socket = s.socket ∧ ¬ NoCyclicWait t) := by
  obtain ⟨s, hrun, hs⟩ := exists_run (M := machine none)
    (show (Machine.exec _ Free init (fillPushes ++ call 3 .disconnect)).map
      (fun s => (s.operations[3]?).map (fun op => op.request.asksSocket)) = some (some true)
      by decide +kernel)
  obtain ⟨op, hop, hasks⟩ := Option.map_eq_some_iff.mp hs
  exact ⟨s, op, hrun, hop, hasks, socketCallsFinish hrun hop hasks⟩

end System

end PhoenixChannels
