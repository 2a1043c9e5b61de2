import PhoenixChannels.Socket.Lemmas.Iterations

/-!
# What the loss of a connection settles

All that waits on the connection is answered, once, after the connectivity change.
-/

namespace PhoenixChannels.Socket

variable {strategy : Option (Nat → Duration)} {now : Instant} {fresh : TxId}
variable {c c' : Connected} {d : Disconnected}

/-- The pending joins, in the order in which they are drained. -/
def Connected.joinEntries (c : Connected) : List (JoinKey × Join) :=
  c.joinByReferenceByTopic.flatten.map fun e => (⟨e.1.1, e.1.2⟩, e.2)

/-- The pending calls, in the order in which they are drained. -/
def Connected.callEntries (c : Connected) : List ((JoinKey × Reference) × TxId) :=
  c.replyTxByReferenceByJoinReferenceByTopic.flatten.map fun e => ((⟨e.1.1, e.1.2.1⟩, e.1.2.2), e.2)

theorem listing_joinEntries (c : Connected) : Dict.Listing c.pendingJoin c.joinEntries where
  mem {key join} := by
    rw [Connected.pendingJoin,
      ← (NestedMap.listing_flatten _).mem (k := (key.topic, key.joinReference))]
    simp only [Connected.joinEntries, List.mem_map]
    constructor
    · rintro ⟨e, he, heq⟩
      obtain ⟨rfl, rfl⟩ := Prod.mk.inj heq
      exact he
    · intro he
      exact ⟨_, he, rfl⟩
  nodup := by
    have hkeys := (NestedMap.listing_flatten c.joinByReferenceByTopic).nodup
    have hinjective : Function.Injective fun k : Topic × JoinReference => JoinKey.mk k.1 k.2 := by
      intro k k' h
      exact Prod.ext (congrArg JoinKey.topic h) (congrArg JoinKey.joinReference h)
    simpa [Connected.joinEntries, Function.comp_def] using hkeys.map hinjective

theorem listing_callEntries (c : Connected) :
    Dict.Listing (fun k : JoinKey × Reference => c.pendingCall k.1 k.2) c.callEntries where
  mem {k tx} := by
    rw [Connected.pendingCall,
      ← (NestedMap₃.listing_flatten _).mem (k := (k.1.topic, k.1.joinReference, k.2))]
    simp only [Connected.callEntries, List.mem_map]
    constructor
    · rintro ⟨e, he, heq⟩
      obtain ⟨rfl, rfl⟩ := Prod.mk.inj heq
      exact he
    · intro he
      exact ⟨_, he, rfl⟩
  nodup := by
    have hkeys := (NestedMap₃.listing_flatten c.replyTxByReferenceByJoinReferenceByTopic).nodup
    have hinjective : Function.Injective fun k : Topic × JoinReference × Reference =>
        (JoinKey.mk k.1 k.2.1, k.2.2) := by
      intro k k' h
      obtain ⟨hkey, hreference⟩ := Prod.mk.inj h
      exact Prod.ext (congrArg JoinKey.topic hkey)
        (Prod.ext (congrArg JoinKey.joinReference hkey) hreference)
    simpa [Connected.callEntries, Function.comp_def] using hkeys.map hinjective

def joinAnswer (entry : JoinKey × Join) : Effect :=
  .joinedTx entry.2.joinedTx (.error .disconnected)

def callAnswer (entry : (JoinKey × Reference) × TxId) : Effect :=
  .replyTx entry.2 (.error .socketDisconnected)

theorem sendDisconnected_effects (c : Connected) (d : Disconnected) :
    (sendDisconnected c d).2 = .connectivity (.disconnected d) ::
      (c.joinEntries.map joinAnswer ++ c.callEntries.map callAnswer) := by
  simp [sendDisconnected, Connected.joinEntries, Connected.callEntries, NestedMap.values_eq,
    NestedMap₃.values_eq, joinAnswer, callAnswer, Function.comp_def]

/-- The effects tell the loss of the connection and then answer each of the pending joins and calls
of the connection, once; `left` senders get no answer. -/
structure SettlesOnce (c : Connected) (d : Disconnected) (effects : List Effect) : Prop where
  answers : ∃ joins calls, Dict.Listing c.pendingJoin joins ∧
    Dict.Listing (fun k : JoinKey × Reference => c.pendingCall k.1 k.2) calls ∧
    effects = .connectivity (.disconnected d) :: (joins.map joinAnswer ++ calls.map callAnswer)
  leftTx (tx : TxId) : .memberLeftTx tx ∉ effects ∧ ∀ result, .leftTx tx result ∉ effects

theorem sendDisconnected_settlesOnce (c : Connected) (d : Disconnected) :
    SettlesOnce c d (sendDisconnected c d).2 where
  answers := ⟨c.joinEntries, c.callEntries, listing_joinEntries c, listing_callEntries c,
    sendDisconnected_effects c d⟩
  leftTx tx := by simp [sendDisconnected_effects, joinAnswer, callAnswer]

/-- Two lists of effects that settle the same connection differ at most in their order. -/
theorem SettlesOnce.perm {effects effects' : List Effect} (h : SettlesOnce c d effects)
    (h' : SettlesOnce c d effects') : effects.Perm effects' := by
  obtain ⟨joins, calls, hjoins, hcalls, rfl⟩ := h.answers
  obtain ⟨joins', calls', hjoins', hcalls', rfl⟩ := h'.answers
  exact .cons _ (((hjoins.perm hjoins').map _).append ((hcalls.perm hcalls').map _))

/-- The same joins and calls are pending, whatever the order in which they are drained. -/
structure SamePending (c c' : Connected) : Prop where
  joins : c'.pendingJoin = c.pendingJoin
  calls : c'.pendingCall = c.pendingCall

theorem SamePending.settles (h : SamePending c c') :
    SettlesOnce c d (sendDisconnected c' d).2 := by
  have hsettles := sendDisconnected_settlesOnce c' d
  refine ⟨?_, hsettles.leftTx⟩
  rw [← h.joins, ← h.calls]
  exact hsettles.answers

/-- What makes a listener lose its connection: a disconnect, a shutdown, a close frame, an error of
the web socket that it recovers from, and a send that fails. -/
inductive LosesConnection (now : Instant) (c : Connected) : Input → Disconnected → Prop
  | disconnect (disconnectedTx : TxId) (outcome : ConnectOutcome) :
      LosesConnection now c (.stateCommand (.disconnect disconnectedTx) outcome) .disconnect
  | shutdown (outcome : ConnectOutcome) :
      LosesConnection now c (.stateCommand .shutdown outcome) .shutdown
  | closeFrame {frame sent} :
      LosesConnection now c (.socketResult (.ok (.close frame)) sent) .reconnect
  | socketError {error : WebSocketError} {sent} :
      error ∈ [.connectionClosed, .alreadyClosed, .io, .tls, .protocol] →
      LosesConnection now c (.socketResult (.error error) sent) .reconnect
  | pong {data error} :
      LosesConnection now c (.socketResult (.ok (.ping data)) (.error error)) .reconnect
  | join {join uuid data error} : (joinMessage join uuid).encode = some (.ok data) →
      LosesConnection now c (.channelStateCommand (.join join) uuid (.error error)) .reconnect
  | leave {leave uuid data error} : (leaveMessage leave uuid).encode = some (.ok data) →
      LosesConnection now c (.channelStateCommand (.leave leave) uuid (.error error)) .reconnect
  | call {call uuid data error} : (callMessage call uuid).encode = some (.ok data) →
      LosesConnection now c (.channelSendCommand (.call call) uuid (.error error)) .reconnect
  | cast {cast uuid data error} : (castMessage cast uuid).encode = some (.ok data) →
      LosesConnection now c (.channelSendCommand (.cast cast) uuid (.error error)) .reconnect
  | heartbeat {uuid error} : c.heartbeat.next ≤ now → c.sentHeartbeatReference = none →
      LosesConnection now c (.heartbeat uuid (.error error)) .reconnect

theorem select_lost {input : Input} {state : State} {effects : List Effect}
    (h : select strategy now fresh (.connected c) input = some (.next state effects))
    (hstate : ∀ c', state ≠ .connected c') :
    ∃ d before after, state = lostState now c d ∧
      effects = before ++ (sendDisconnected c d).2 ++ after ∧
      ∀ effect ∈ before ++ after, LostEffect d input effect := by
  have hiter := select_connected h
  generalize hi : Iteration.next state effects = iteration at hiter
  cases hiter with
  | lost d _ heq hlost =>
      obtain ⟨rfl, rfl⟩ := Iteration.next.inj hi
      exact ⟨d, _, _, heq, rfl, hlost⟩
  | push | exit | panic => cases hi
  | _ => exact absurd (Iteration.next.inj hi).1 (hstate _)

theorem heartbeatMessage_encode (reference : Reference) : (heartbeatMessage reference).encode =
    some (.ok (.text (some (.array [.null, .string reference.text, .string "phoenix",
      .string "heartbeat", .null])))) := rfl

/-- Each of them does lose it, and the pending joins and calls are settled. -/
theorem LosesConnection.select {input : Input} (h : LosesConnection now c input d) :
    ∃ before after, select strategy now fresh (.connected c) input =
      some (.next (lostState now c d) (before ++ (sendDisconnected c d).2 ++ after)) := by
  cases h with
  | disconnect disconnectedTx => exact ⟨[.close], [.disconnectedTx disconnectedTx], rfl⟩
  | shutdown => exact ⟨[.close], [], by rw [List.append_nil]; rfl⟩
  | closeFrame => exact ⟨[.close], [], by rw [List.append_nil]; rfl⟩
  | socketError herror =>
      refine ⟨[], [], ?_⟩
      rw [List.append_nil]
      simp only [List.mem_cons, List.not_mem_nil, or_false] at herror
      rcases herror with rfl | rfl | rfl | rfl | rfl <;> rfl
  | pong => exact ⟨[], [], by rw [List.append_nil]; rfl⟩
  | join hdata =>
      refine ⟨[], [], ?_⟩
      simp [Socket.select, updateChannelState, startJoin, hdata, unwrap, Iteration.ofPanics,
        waitToReconnectConnected, lostState]
  | @leave l uuid data error hdata =>
      refine ⟨[], [.leftTx l.leftTx (.error (.webSocketError error))], ?_⟩
      simp [Socket.select, updateChannelState, Socket.leave, hdata, unwrap, Iteration.ofPanics,
        waitToReconnectConnected, lostState]
  | @call k uuid data error hdata =>
      refine ⟨[.replyTx k.replyTx (.error (.webSocketError error))], [], ?_⟩
      simp [Socket.select, send, Socket.call, hdata, unwrap, Iteration.ofPanics,
        waitToReconnectConnected, lostState]
  | cast hdata =>
      refine ⟨[], [], ?_⟩
      simp [Socket.select, send, Socket.cast, hdata, unwrap, Iteration.ofPanics,
        waitToReconnectConnected, lostState]
  | heartbeat hdue hnone =>
      refine ⟨[], [], ?_⟩
      simp [Socket.select, hdue, Socket.heartbeat, hnone, heartbeatMessage_encode, unwrap,
        Iteration.ofPanics, waitToReconnectConnected, sendDisconnected, lostState]

/-- What the loss of a connection does, with anything in its maps. -/
structure SettlesWhenLost (c : Connected) (d : Disconnected) : Prop where
  settles : SettlesOnce c d (sendDisconnected c d).2
  emptied : (sendDisconnected c d).1.joinByReferenceByTopic = ∅ ∧
    (sendDisconnected c d).1.joinedChannelTxsByJoinReferenceByTopic = ∅ ∧
    (sendDisconnected c d).1.replyTxByReferenceByJoinReferenceByTopic = ∅
  anyOrder {c' : Connected} : SamePending c c' →
    SettlesOnce c d (sendDisconnected c' d).2 ∧
      (sendDisconnected c' d).2.Perm (sendDisconnected c d).2
  called {strategy : Option (Nat → Duration)} {now : Instant} {fresh : TxId} {input : Input} :
    LosesConnection now c input d → ∃ before after,
      select strategy now fresh (.connected c) input =
        some (.next (lostState now c d) (before ++ (sendDisconnected c d).2 ++ after))
  only {strategy : Option (Nat → Duration)} {now : Instant} {fresh : TxId} {input : Input}
      {state : State} {effects : List Effect} :
    select strategy now fresh (.connected c) input = some (.next state effects) →
    (∀ c', state ≠ .connected c') → ∃ d before after, state = lostState now c d ∧
      effects = before ++ (sendDisconnected c d).2 ++ after ∧
      ∀ effect ∈ before ++ after, LostEffect d input effect

end PhoenixChannels.Socket
