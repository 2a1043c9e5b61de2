import PhoenixChannels.Message.Lemmas.Decoding
import PhoenixChannels.Socket.World

/-!
# What one iteration of the socket listener can do

All that an iteration can come to, once for the states with a connection and once for the states
without. The invariants are proved by cases on these relations and do not unfold the handlers.
-/

namespace PhoenixChannels

/-- What a reply echoes of the push that it answers. -/
structure PushId where
  key : Socket.JoinKey
  reference : Reference
deriving DecidableEq, Repr

namespace Socket

/-- The push that the handler of a command writes when its write succeeds. -/
def Input.push? : Input → Option (PushId × Origin)
  | channelStateCommand (.join j) uuid (.ok ()) =>
      some (⟨j.key, Reference.new uuid⟩, .join j.joinedTx)
  | channelStateCommand (.leave l) uuid (.ok ()) =>
      some (⟨l.key, Reference.new uuid⟩, .leave l.ticket)
  | channelSendCommand (.call k) uuid (.ok ()) =>
      some (⟨k.key, Reference.new uuid⟩, .call k.replyTx)
  | channelSendCommand (.cast k) uuid (.ok ()) =>
      some (⟨k.key, Reference.new uuid⟩, .cast k.ticket)
  | _ => none

/-- The input brings no reply, and its handler writes no push. -/
def Input.silent (input : Input) : Bool := input.reply?.isNone && input.push?.isNone

theorem Input.reply?_of_silent {input : Input} (h : input.silent = true) :
    input.reply? = none := by
  simp only [Input.silent, Bool.and_eq_true, Option.isNone_iff_eq_none] at h
  exact h.1

theorem Input.push?_of_silent {input : Input} (h : input.silent = true) :
    input.push? = none := by
  simp only [Input.silent, Bool.and_eq_true, Option.isNone_iff_eq_none] at h
  exact h.2

/-- The input brings no reply and no command of a channel. -/
def Input.passive : Input → Bool
  | channelStateCommand _ _ _ | channelSendCommand _ _ _ => false
  | input => input.reply?.isNone

theorem Input.silent_of_passive {input : Input} (h : input.passive = true) :
    input.silent = true := by
  unfold Input.passive at h
  split at h
  · cases h
  · cases h
  · rename_i hstate hsend
    have hpush : input.push? = none := by
      cases input with
      | channelStateCommand command uuid sent => exact absurd rfl (hstate _ _ _)
      | channelSendCommand command uuid sent => exact absurd rfl (hsend _ _ _)
      | _ => rfl
    simpa [Input.silent, hpush] using h

/-- An effect that answers no join, leave or call, changes no connectivity, and writes no push. -/
def Effect.quiet : Effect → Bool
  | .pong _ | .close | .statusError _ | .connectedTx _ _ => true
  | .write (.control _) .heartbeat => true
  | _ => false

/-- A quiet effect of an input: it answers no connect but the one that the input brings. -/
structure Effect.QuietFor (input : Input) (effect : Effect) : Prop where
  quiet : effect.quiet = true
  answersConnect {tx : TxId} {result : Except ConnectError Unit} :
    effect = .connectedTx tx result →
      ∃ connect outcome, input = .stateCommand (.connect connect) outcome ∧ connect.connectedTx = tx

namespace Effect

@[simp] theorem quietFor_connectedTx {connect : Connect} {outcome : ConnectOutcome}
    {result : Except ConnectError Unit} :
    QuietFor (.stateCommand (.connect connect) outcome) (.connectedTx connect.connectedTx result) where
  quiet := rfl
  answersConnect := by
    intro tx result h
    cases h
    exact ⟨connect, outcome, rfl, rfl⟩

variable {input : Input}

@[simp] theorem quietFor_pong {data : List UInt8} : QuietFor input (.pong data) := ⟨rfl, nofun⟩

@[simp] theorem quietFor_close : QuietFor input .close := ⟨rfl, nofun⟩

@[simp] theorem quietFor_statusError {error : WebSocketError} :
    QuietFor input (.statusError error) := ⟨rfl, nofun⟩

@[simp] theorem quietFor_heartbeat {m : Control} :
    QuietFor input (.write (.control m) .heartbeat) := ⟨rfl, nofun⟩

end Effect

/-- The state after `send_disconnected`. -/
def lostState (now : Instant) (c : Connected) : Disconnected → State
  | .disconnect => .disconnected
  | .shutdown => .shuttingDown
  | .reconnect => Reconnect.wait now { connectTimeout := c.connectTimeout, attempts := 0 }

/-- An effect beside those of `send_disconnected` when the connection is lost: a quiet one, the
acknowledgement of a disconnect, or the answer to the leave or the call whose write failed. -/
inductive LostEffect : Disconnected → Input → Effect → Prop
  | quiet {d input effect} : effect.QuietFor input → LostEffect d input effect
  | disconnect {tx outcome} :
      LostEffect .disconnect (.stateCommand (.disconnect tx) outcome) (.disconnectedTx tx)
  | leave {l : Leave} {uuid error} :
      LostEffect .reconnect (.channelStateCommand (.leave l) uuid (.error error))
        (.leftTx l.leftTx (.error (.webSocketError error)))
  | call {c : Call} {uuid error} :
      LostEffect .reconnect (.channelSendCommand (.call c) uuid (.error error))
        (.replyTx c.replyTx (.error (.webSocketError error)))

/-- The iterations of a listener with a connection. -/
inductive ConnectedIteration (now : Instant) (fresh : TxId) (c : Connected) :
    Input → Iteration → Prop
  | quiet {input effects} (heartbeat : Interval) (reference : Option Reference) :
      input.passive = true → (∀ e ∈ effects, e.QuietFor input) →
      ConnectedIteration now fresh c input (.next (.connected
        { c with heartbeat := heartbeat, sentHeartbeatReference := reference }) effects)
  | spawned {spawn delivered} (uuid : Uuid) :
      ConnectedIteration now fresh c (.channelSpawn spawn uuid delivered)
        (.next (.connected c)
          [.spawned spawn (JoinReference.new uuid) .waitingToJoin delivered])
  | reply {received sent} (r : Reply) :
      Message.decode received = some (.ok (.reply r)) →
      ConnectedIteration now fresh c (.socketResult (.ok received) sent)
        (.next (.connected (c.handleReply r fresh).1) (c.handleReply r fresh).2)
  | broadcast {received sent} (b : Broadcast) :
      Message.decode received = some (.ok (.broadcast b)) →
      ConnectedIteration now fresh c (.socketResult (.ok received) sent)
        (.next (.connected (c.handleBroadcast b).1) (c.handleBroadcast b).2)
  | push {received sent} (p : Push) (pushTx : TxId) :
      Message.decode received = some (.ok (.push p)) → c.pushTx p = some pushTx →
      ConnectedIteration now fresh c (.socketResult (.ok received) sent) (.push c pushTx p)
  | join (j : Join) (uuid : Uuid) :
      ConnectedIteration now fresh c (.channelStateCommand (.join j) uuid (.ok ()))
        (.next (.connected { c with
          joinByReferenceByTopic := c.joinByReferenceByTopic.put j.topic j.joinReference j
          joinTimeouts := c.joinTimeouts ++ [⟨j.deadline, j.key, j.joinedTx⟩] })
          [.write (joinMessage j uuid) (.join j.joinedTx)])
  | leave (l : Leave) (uuid : Uuid) :
      ConnectedIteration now fresh c (.channelStateCommand (.leave l) uuid (.ok ()))
        (.next (.connected (c.removeJoinedChannelTxs l.key).2)
          ([.write (leaveMessage l uuid) (.leave l.ticket)]
            ++ ((c.removeJoinedChannelTxs l.key).1.map
              (fun senders => Effect.memberLeftTx senders.left)).toList
            ++ [.leftTx l.leftTx (.ok ())]))
  | call (k : Call) (uuid : Uuid) :
      ConnectedIteration now fresh c (.channelSendCommand (.call k) uuid (.ok ()))
        (.next (.connected { c with
          replyTxByReferenceByJoinReferenceByTopic :=
            c.replyTxByReferenceByJoinReferenceByTopic.put k.topic k.joinReference
              (Reference.new uuid) k.replyTx })
          [.write (callMessage k uuid) (.call k.replyTx)])
  | cast (k : Cast) (uuid : Uuid) :
      ConnectedIteration now fresh c (.channelSendCommand (.cast k) uuid (.ok ()))
        (.next (.connected c) [.write (castMessage k uuid) (.cast k.ticket)])
  | timedOut (index : Nat) (timeout : JoinTimeout) :
      c.joinTimeouts[index]? = some timeout → timeout.deadline ≤ now →
      ConnectedIteration now fresh c (.joinTimeout index)
        (.next (.connected
          ({ c with joinTimeouts := c.joinTimeouts.eraseIdx index }.joinTimedOut timeout.key).1)
          ({ c with joinTimeouts := c.joinTimeouts.eraseIdx index }.joinTimedOut timeout.key).2)
  | lost {input before after state} (d : Disconnected) :
      input.silent = true → state = lostState now c d →
      (∀ e ∈ before ++ after, LostEffect d input e) →
      ConnectedIteration now fresh c input
        (.next state (before ++ (sendDisconnected c d).2 ++ after))
  | exit {e sent} (error : ShutdownError) :
      ConnectedIteration now fresh c (.socketResult (.error e) sent) (.exit (.error error))
  | panic {input} : input.reply? = none → ConnectedIteration now fresh c input .panic

/-- The iterations of a listener without a connection. -/
inductive UnconnectedIteration (now : Instant) (state : State) : Input → Iteration → Prop
  | quiet {input effects} : input.passive = true → (∀ e ∈ effects, e.QuietFor input) →
      UnconnectedIteration now state input (.next state effects)
  | spawned {spawn delivered} (uuid : Uuid) :
      UnconnectedIteration now state (.channelSpawn spawn uuid delivered)
        (.next state [.spawned spawn (JoinReference.new uuid) (channelState state) delivered])
  | connected {command timeout effects} :
      state = .neverConnected ∨ state = .disconnected →
      (∀ e ∈ effects, e.QuietFor (.stateCommand (.connect command) .connected)) →
      UnconnectedIteration now state (.stateCommand (.connect command) .connected)
        (.next (.connected (Connected.new now timeout))
          ([.connectivity .connected] ++ effects))
  | connectFailed {command outcome sleep reconnect effects} :
      state = .neverConnected ∨ state = .disconnected →
      (∀ e ∈ effects, e.QuietFor (.stateCommand (.connect command) outcome)) →
      UnconnectedIteration now state (.stateCommand (.connect command) outcome)
        (.next (.waitingToReconnect sleep reconnect) effects)
  | reconnected {sleep reconnect timeout} :
      state = .waitingToReconnect sleep reconnect → sleep ≤ now →
      UnconnectedIteration now state (.sleepElapsed .connected)
        (.next (.connected (Connected.new now timeout)) [.connectivity .connected])
  | reconnectFailed {outcome sleep reconnect sleep' reconnect' effects} :
      state = .waitingToReconnect sleep reconnect → sleep ≤ now →
      (∀ e ∈ effects, e.QuietFor (.sleepElapsed outcome)) →
      UnconnectedIteration now state (.sleepElapsed outcome)
        (.next (.waitingToReconnect sleep' reconnect') effects)
  | disconnect {tx outcome} :
      UnconnectedIteration now state (.stateCommand (.disconnect tx) outcome)
        (.next state [.disconnectedTx tx])
  | shutdown {outcome} :
      UnconnectedIteration now state (.stateCommand .shutdown outcome) (.next .shuttingDown [])
  | exit {input} : input.reply? = none → UnconnectedIteration now state input (.exit (.ok ()))
  | panic {input} : input.reply? = none → UnconnectedIteration now state input .panic

variable {strategy : Option (Nat → Duration)} {now : Instant} {fresh : TxId} {c : Connected}

/-! ## The handlers of a connection -/

theorem ConnectedIteration.unchanged {input effects} (hr : input.passive = true)
    (h : ∀ e ∈ effects, Effect.QuietFor input e) :
    ConnectedIteration now fresh c input (.next (.connected c) effects) :=
  .quiet c.heartbeat c.sentHeartbeatReference hr h

theorem ConnectedIteration.waitToReconnect {input effects} (before after : List Effect)
    (hr : input.silent = true) (he : effects = before ++ (sendDisconnected c .reconnect).2 ++ after)
    (h : ∀ e ∈ before ++ after, LostEffect .reconnect input e) :
    ConnectedIteration now fresh c input (.next (lostState now c .reconnect) effects) :=
  he ▸ .lost .reconnect hr rfl h

theorem waitToReconnectConnected_snd :
    (waitToReconnectConnected now c).2 = (sendDisconnected c .reconnect).2 := rfl

theorem handleMessage_cases {received sent} {message : Message}
    (hd : Message.decode received = some (.ok message)) :
    ConnectedIteration now fresh c (.socketResult (.ok received) sent)
      (handleMessage now c message fresh) := by
  cases message with
  | control m =>
      have hr : (Input.socketResult (.ok received) sent).passive = true := by
        simp [Input.passive, Input.reply?, hd]
      simp only [handleMessage]
      split
      · exact .quiet _ _ hr (by simp)
      · exact .unchanged hr (by simp)
  | broadcast b => exact .broadcast b hd
  | reply r =>
      simp only [handleMessage]
      split
      · rename_i hevent
        rw [decode_reply_event hd] at hevent
        cases hevent
      · exact .reply r hd
  | push p =>
      simp only [handleMessage]
      split
      · exact .push p _ hd ‹_›
      · exact .unchanged (by simp [Input.passive, Input.reply?, hd]) (by simp)

theorem handleSocketMessage_cases (received : SocketMessage) (sent : Except WebSocketError Unit) :
    ConnectedIteration now fresh c (.socketResult (.ok received) sent)
      (handleSocketMessage now c received sent fresh) := by
  have decoded : ∀ d, Message.decode received = some d →
      ConnectedIteration now fresh c (.socketResult (.ok received) sent)
        (handleDecoded now c d fresh) := by
    intro d hd
    cases d with
    | ok message => exact handleMessage_cases hd
    | error e => exact .unchanged (by simp [Input.passive, Input.reply?, hd]) (by simp)
  cases received with
  | text t => exact decoded _ rfl
  | binary bytes => exact decoded _ rfl
  | ping data =>
      cases sent with
      | ok u => exact .unchanged rfl (by simp)
      | error e => exact .waitToReconnect [] [] rfl (by simp) (by simp)
  | pong data => exact .unchanged rfl (by simp)
  | close reason =>
      exact .waitToReconnect [.close] [] rfl (by simp) (by simpa using .quiet Effect.quietFor_close)
  | frame => exact .panic rfl

theorem handleSocketError_cases {sent} (error : WebSocketError) :
    ConnectedIteration now fresh c (.socketResult (.error error) sent)
      (handleSocketError now c error) := by
  have lost : ConnectedIteration now fresh c (.socketResult (.error error) sent)
      (.next (waitToReconnectConnected now c).1 (waitToReconnectConnected now c).2) := by
    exact .waitToReconnect [] [] rfl (by simp [waitToReconnectConnected_snd]) (by simp)
  have kept : ConnectedIteration now fresh c (.socketResult (.error error) sent)
      (.next (.connected c) []) := .unchanged rfl (by simp)
  cases error <;> first | exact lost | exact kept | exact .exit _

theorem startJoin_cases (j : Join) (uuid : Uuid) (sent : Except WebSocketError Unit) :
    ConnectedIteration now fresh c (.channelStateCommand (.join j) uuid sent)
      (Iteration.ofPanics (startJoin now c j uuid sent)) := by
  simp only [startJoin, Option.bind_eq_bind]
  cases (joinMessage j uuid).encode with
  | none => exact .panic rfl
  | some encoded =>
      cases encoded with
      | error e => exact .panic rfl
      | ok data =>
          cases sent with
          | ok u => exact .join j uuid
          | error e => exact .waitToReconnect [] [] rfl (by simp) (by simp)

theorem leave_cases (l : Leave) (uuid : Uuid) (sent : Except WebSocketError Unit) :
    ConnectedIteration now fresh c (.channelStateCommand (.leave l) uuid sent)
      (Iteration.ofPanics (leave now c l uuid sent)) := by
  simp only [leave, Option.bind_eq_bind]
  cases (leaveMessage l uuid).encode with
  | none => exact .panic rfl
  | some encoded =>
      cases encoded with
      | error e => exact .panic rfl
      | ok data =>
          cases sent with
          | ok u => exact .leave l uuid
          | error e =>
              exact .waitToReconnect [] [.leftTx l.leftTx (.error (.webSocketError e))]
                rfl (by simp [waitToReconnectConnected_snd])
                (by simpa using .leave)

theorem call_cases (k : Call) (uuid : Uuid) (sent : Except WebSocketError Unit) :
    ConnectedIteration now fresh c (.channelSendCommand (.call k) uuid sent)
      (Iteration.ofPanics (call now c k uuid sent)) := by
  simp only [call, Option.bind_eq_bind]
  cases (callMessage k uuid).encode with
  | none => exact .panic rfl
  | some encoded =>
      cases encoded with
      | error e => exact .panic rfl
      | ok data =>
          cases sent with
          | ok u => exact .call k uuid
          | error e =>
              exact .waitToReconnect [.replyTx k.replyTx (.error (.webSocketError e))] []
                rfl (by simp [waitToReconnectConnected_snd])
                (by simpa using .call)

theorem cast_cases (k : Cast) (uuid : Uuid) (sent : Except WebSocketError Unit) :
    ConnectedIteration now fresh c (.channelSendCommand (.cast k) uuid sent)
      (Iteration.ofPanics (cast now c k uuid sent)) := by
  simp only [cast, Option.bind_eq_bind]
  cases (castMessage k uuid).encode with
  | none => exact .panic rfl
  | some encoded =>
      cases encoded with
      | error e => exact .panic rfl
      | ok data =>
          cases sent with
          | ok u => exact .cast k uuid
          | error e => exact .waitToReconnect [] [] rfl (by simp) (by simp)

theorem heartbeat_cases (interval : Interval) (uuid : Uuid) (sent : Except WebSocketError Unit) :
    ConnectedIteration now fresh c (.heartbeat uuid sent)
      (Iteration.ofPanics (heartbeat now { c with heartbeat := interval } uuid sent)) := by
  unfold heartbeat
  split
  · exact .quiet _ _ rfl (by simp)
  · simp only [Option.bind_eq_bind]
    cases (heartbeatMessage (Reference.heartbeat uuid)).encode with
    | none => exact .panic rfl
    | some encoded =>
        cases encoded with
        | error e => exact .panic rfl
        | ok data =>
            cases sent with
            | ok u => exact .quiet _ _ rfl (by simp [heartbeatMessage])
            | error e =>
                show ConnectedIteration now fresh c _
                  (.next (lostState now c .reconnect) (sendDisconnected c .reconnect).2)
                exact .waitToReconnect [] [] rfl (by simp) (by simp)

theorem updateState_cases (command : StateCommand) (outcome : ConnectOutcome) :
    ConnectedIteration now fresh c (.stateCommand command outcome)
      (Iteration.ofPanics (updateState strategy now (.connected c) command outcome)) := by
  cases command with
  | connect k => exact .unchanged rfl (by simp)
  | disconnect tx =>
      have h : ∀ e ∈ [Effect.close] ++ [.disconnectedTx tx],
          LostEffect .disconnect (.stateCommand (.disconnect tx) outcome) e := by
        simpa using ⟨.quiet Effect.quietFor_close, .disconnect⟩
      exact .lost .disconnect rfl rfl h
  | shutdown =>
      have h : ∀ e ∈ [Effect.close] ++ [],
          LostEffect .shutdown (.stateCommand .shutdown outcome) e := by
        simpa using .quiet Effect.quietFor_close
      have hlost : ConnectedIteration now fresh c (.stateCommand .shutdown outcome)
          (.next (lostState now c .shutdown) ([.close] ++ (sendDisconnected c .shutdown).2 ++ [])) :=
        .lost .shutdown rfl rfl h
      simpa [updateState, shutdown, Iteration.ofPanics, shutdownConnected, lostState] using hlost

/-- Every iteration of a listener with a connection is one of the listed ones. -/
theorem select_connected {input : Input} {iteration : Iteration}
    (h : select strategy now fresh (.connected c) input = some iteration) :
    ConnectedIteration now fresh c input iteration := by
  cases input with
  | socketResult result sent =>
      simp only [select, Option.some.injEq] at h
      subst h
      cases result with
      | ok received => exact handleSocketMessage_cases received sent
      | error e => exact handleSocketError_cases e
  | channelSpawn spawn uuid delivered =>
      simp only [select, State.serves, ↓reduceIte, Option.some.injEq] at h
      subst h
      exact .spawned uuid
  | stateCommand command outcome =>
      simp only [select, State.serves, Bool.true_and] at h
      split at h
      · simp only [Option.some.injEq] at h
        subst h
        exact updateState_cases command outcome
      · cases h
  | channelStateCommand command uuid sent =>
      simp only [select, Option.some.injEq] at h
      subst h
      cases command with
      | join j => exact startJoin_cases j uuid sent
      | leave l => exact leave_cases l uuid sent
  | channelSendCommand command uuid sent =>
      simp only [select, Option.some.injEq] at h
      subst h
      cases command with
      | call k => exact call_cases k uuid sent
      | cast k => exact cast_cases k uuid sent
  | joinTimeout index =>
      simp only [select] at h
      split at h
      · rename_i timeout ht
        split at h
        · simp only [Option.some.injEq] at h
          subst h
          exact .timedOut index timeout ht ‹_›
        · cases h
      · cases h
  | heartbeat uuid sent =>
      simp only [select] at h
      split at h
      · simp only [Option.some.injEq] at h
        subst h
        exact heartbeat_cases _ uuid sent
      · cases h
  | sleepElapsed outcome => cases h
  | closed => cases h
  | stop => cases h

/-! ## Without a connection -/

theorem connect_cases {state : State} (command : Connect) (outcome : ConnectOutcome)
    (hs : ∀ c, state ≠ .connected c) :
    UnconnectedIteration now state (.stateCommand (.connect command) outcome)
      (Iteration.ofPanics (connect strategy now state command outcome)) := by
  have fresh : state = .neverConnected ∨ state = .disconnected →
      UnconnectedIteration now state (.stateCommand (.connect command) outcome)
        (Iteration.ofPanics (connect strategy now state command outcome)) := by
    intro hf
    have failed : ∀ reconnect effects,
        (∀ e ∈ effects, Effect.QuietFor (.stateCommand (.connect command) outcome) e) →
        UnconnectedIteration now state (.stateCommand (.connect command) outcome)
          (.next (waitAfterFailure strategy now reconnect) effects) := by
      intro reconnect effects hq
      cases strategy <;> exact .connectFailed hf hq
    have hstate : connect strategy now state command outcome =
        connect strategy now .neverConnected command outcome := by
      rcases hf with rfl | rfl <;> rfl
    rw [hstate]
    cases outcome with
    | connected => exact .connected hf (by simp)
    | error e => exact failed _ _ (by simp)
    | timeout => exact failed _ _ (by simp)
  cases state with
  | neverConnected => exact fresh (.inl rfl)
  | disconnected => exact fresh (.inr rfl)
  | connected c => exact absurd rfl (hs c)
  | waitingToReconnect sleep r => exact .quiet rfl (by simp)
  | shuttingDown => exact .quiet rfl (by simp)
  | shutDown => exact .panic rfl

/-- Every iteration of a listener without a connection is one of the listed ones. -/
theorem select_unconnected {state : State} {input : Input} {iteration : Iteration}
    (hs : ∀ c, state ≠ .connected c)
    (h : select strategy now fresh state input = some iteration) :
    UnconnectedIteration now state input iteration := by
  cases input with
  | socketResult result sent =>
      cases state <;> first | exact absurd rfl (hs _) | cases h
  | channelSpawn spawn uuid delivered =>
      simp only [select] at h
      split at h
      · simp only [Option.some.injEq] at h
        subst h
        exact .spawned uuid
      · cases h
  | stateCommand command outcome =>
      simp only [select] at h
      split at h
      · simp only [Option.some.injEq] at h
        subst h
        cases command with
        | connect k => exact connect_cases k outcome hs
        | disconnect tx =>
            cases state with
            | connected c => exact absurd rfl (hs c)
            | _ => exact .disconnect
        | shutdown =>
            cases state with
            | connected c => exact absurd rfl (hs c)
            | _ => exact .shutdown
      · cases h
  | channelStateCommand command uuid sent =>
      cases state <;> first | exact absurd rfl (hs _) | cases h
  | channelSendCommand command uuid sent =>
      cases state <;> first | exact absurd rfl (hs _) | cases h
  | joinTimeout index => cases state <;> first | exact absurd rfl (hs _) | cases h
  | heartbeat uuid sent => cases state <;> first | exact absurd rfl (hs _) | cases h
  | sleepElapsed outcome =>
      cases state with
      | waitingToReconnect sleep r =>
          simp only [select, Bool.and_eq_true, decide_eq_true_eq] at h
          split at h
          · rename_i hready
            simp only [Option.some.injEq] at h
            subst h
            have failed : ∀ r' effects, (∀ e ∈ effects, Effect.QuietFor (.sleepElapsed outcome) e) →
                UnconnectedIteration now (.waitingToReconnect sleep r) (.sleepElapsed outcome)
                  (.next (waitAfterFailure strategy now r') effects) := by
              intro r' effects hq
              cases strategy <;> exact .reconnectFailed rfl hready.1 hq
            cases outcome with
            | connected => exact .reconnected rfl hready.1
            | error e => exact failed _ _ (by simp)
            | timeout => exact failed _ _ (by simp)
          · cases h
      | _ => first | exact absurd rfl (hs _) | cases h
  | closed =>
      cases state <;> simp only [select, Option.some.injEq, reduceCtorEq] at h <;> subst h <;>
        exact .exit rfl
  | stop =>
      cases state <;> simp only [select, Option.some.injEq, reduceCtorEq] at h <;> subst h <;>
        exact .exit rfl

theorem UnconnectedIteration.reply?_eq_none {state : State} {input : Input} {iteration : Iteration}
    (h : UnconnectedIteration now state input iteration) : input.reply? = none := by
  cases h <;>
    first | rfl | assumption | exact Input.reply?_of_silent (Input.silent_of_passive ‹_›)

/-! ## Steps of the machine -/

/-- The steps of the machine, with an iteration given by what it can come to. -/
inductive WorldStep (w : World) : Label → World → Prop
  | elapse (duration : Duration) : WorldStep w (.elapse duration) { w with now := w.now + duration }
  | connected {c : Connected} {input : Input} {iteration : Iteration} :
      w.task = .selecting (.connected c) → w.uuidFresh input = true →
      ConnectedIteration w.now w.fresh c input iteration →
      WorldStep w (.select input) (w.record (.connected c) input iteration)
  | unconnected {state : State} {input : Input} {iteration : Iteration} :
      w.task = .selecting state → (∀ c, state ≠ .connected c) → w.uuidFresh input = true →
      UnconnectedIteration w.now state input iteration →
      WorldStep w (.select input) (w.record state input iteration)
  | pushed {c : Connected} {pushTx : TxId} {push : Push} :
      w.task = .pushing c pushTx push →
      WorldStep w .pushed { w with task := .publishing (.connected c) }
  | publish {state : State} :
      w.task = .publishing state →
      WorldStep w .publish { w with task := .selecting state, status := state.status }

theorem step_cases {w w' : World} {label : Label}
    (h : (machine strategy).step w label = some w') : WorldStep w label w' := by
  simp only [machine, World.step] at h
  cases label with
  | elapse duration =>
      simp only [Option.some.injEq] at h
      exact h ▸ .elapse duration
  | select input =>
      simp only [] at h
      split at h
      · rename_i state htask
        split at h
        · rename_i hfresh
          obtain ⟨iteration, hselect, rfl⟩ := Option.map_eq_some_iff.mp h
          cases state with
          | connected c => exact .connected htask hfresh (select_connected hselect)
          | _ =>
              exact .unconnected htask (by simp) hfresh (select_unconnected (by simp) hselect)
        · cases h
      · cases h
  | pushed =>
      simp only [] at h
      split at h
      · rename_i c pushTx push htask
        simp only [Option.some.injEq] at h
        exact h ▸ .pushed htask
      · cases h
  | publish =>
      simp only [] at h
      split at h
      · rename_i state htask
        simp only [Option.some.injEq] at h
        exact h ▸ .publish htask
      · cases h

theorem step_select {w w' : World} {input : Input}
    (h : (machine strategy).step w (.select input) = some w') :
    ∃ state iteration, w.task = .selecting state ∧
      select strategy w.now w.fresh state input = some iteration ∧
      w' = w.record state input iteration := by
  simp only [machine, World.step] at h
  split at h
  · split at h
    · obtain ⟨iteration, hselect, rfl⟩ := Option.map_eq_some_iff.mp h
      exact ⟨_, iteration, ‹_›, hselect, rfl⟩
    · cases h
  · cases h

/-- Only an iteration changes the state. -/
theorem state_of_step {w w' : World} {label : Label} (h : (machine strategy).step w label = some w')
    (hlabel : ∀ input, label ≠ .select input) : w'.task.state = w.task.state := by
  cases step_cases h with
  | elapse => rfl
  | connected | unconnected => exact absurd rfl (hlabel _)
  | pushed htask | publish htask =>
      rw [htask]
      rfl

end Socket

end PhoenixChannels
