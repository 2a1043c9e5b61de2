import PhoenixChannels.Socket.State

/-!
# The handlers of the socket listener

`rust/socket/listener.rs`, function by function. A handler gets the state by value and gives the
next one with its effects in order. `now` is the instant at which it runs, `sent` the outcome of
its write to the web socket, `uuid` the uuid it draws.
-/

namespace PhoenixChannels.Socket

open Channel (LeaveError CallError)

/-! ## The maps of a connection -/

namespace Connected

def removeJoin (connected : Connected) (key : JoinKey) : Option Join × Connected :=
  let (join, map) := connected.joinByReferenceByTopic.remove key.topic key.joinReference
  (join, { connected with joinByReferenceByTopic := map })

def removeJoinedChannelTxs (connected : Connected) (key : JoinKey) :
    Option JoinedChannelSenders × Connected :=
  let (senders, map) :=
    connected.joinedChannelTxsByJoinReferenceByTopic.remove key.topic key.joinReference
  (senders, { connected with joinedChannelTxsByJoinReferenceByTopic := map })

def removeReplyTx (connected : Connected) (key : JoinKey) (reference : Reference) :
    Option TxId × Connected :=
  let (replyTx, map) :=
    connected.replyTxByReferenceByJoinReferenceByTopic.remove key.topic key.joinReference reference
  (replyTx, { connected with replyTxByReferenceByJoinReferenceByTopic := map })

/-- A subscription to the broadcasts of a topic, which makes their channel if there is none. -/
def subscribeBroadcast (connected : Connected) (topic : Topic) (fresh : TxId) :
    BroadcastReceiver × Connected :=
  match connected.broadcastByTopic.lookup topic with
  | some sender => (sender.subscribe, connected)
  | none =>
      let sender : BroadcastSender := ⟨fresh, 0⟩
      (sender.subscribe,
        { connected with broadcastByTopic := connected.broadcastByTopic.insert topic sender })

/-- `fresh` names the push, the broadcast and the left channel that a finished join makes. -/
def finishJoin (connected : Connected) (reply : Reply) (join : Join) (fresh : TxId) :
    Connected × List Effect :=
  match reply.status with
  | .error => (connected, [.joinedTx join.joinedTx (.error (.rejected reply.payload))])
  | .ok =>
      let (broadcast, connected) := connected.subscribeBroadcast join.topic fresh
      let connected := { connected with
        joinedChannelTxsByJoinReferenceByTopic :=
          connected.joinedChannelTxsByJoinReferenceByTopic.put join.topic reply.joinReference
            { push := fresh, left := fresh } }
      let joined : JoinedChannelReceivers :=
        { push := fresh, broadcast, left := fresh, payload := reply.payload }
      (connected, [.joinedTx join.joinedTx (.ok joined)])

def handleReply (connected : Connected) (reply : Reply) (fresh : TxId) :
    Connected × List Effect :=
  match connected.removeJoin reply.key with
  | (some join, connected) => connected.finishJoin reply join fresh
  | (none, connected) =>
      match connected.removeReplyTx reply.key reply.reference with
      | (some replyTx, connected) =>
          let result := match reply.status with
            | .ok => .ok reply.payload
            | .error => .error (.reply reply.payload)
          (connected, [.replyTx replyTx result])
      | (none, connected) => (connected, [])

/-- The sender that `handle_push` sends the push into. -/
def pushTx (connected : Connected) (push : Push) : Option TxId :=
  (connected.joinedChannelTxs push.key).map (·.push)

def handleBroadcast (connected : Connected) (broadcast : Broadcast) : Connected × List Effect :=
  match connected.broadcastByTopic.lookup broadcast.topic with
  | some sender =>
      ({ connected with
          broadcastByTopic :=
            connected.broadcastByTopic.insert broadcast.topic
              { sender with sent := sender.sent + 1 } },
        [.broadcastTx sender.tx broadcast])
  | none => (connected, [])

def joinTimedOut (connected : Connected) (key : JoinKey) : Connected × List Effect :=
  match connected.removeJoin key with
  | (some join, connected) => (connected, [.joinedTx join.joinedTx (.error .timeout)])
  | (none, connected) => (connected, [])

end Connected

/-! ## Losing the connection -/

/-- The connectivity change, then the answers to all pending joins and calls, in the order in which
the maps are drained. The `left` senders of joined channels are dropped without a word. -/
def sendDisconnected (connected : Connected) (disconnected : Disconnected) :
    Connected × List Effect :=
  ({ connected with
      joinByReferenceByTopic := ∅
      joinedChannelTxsByJoinReferenceByTopic := ∅
      replyTxByReferenceByJoinReferenceByTopic := ∅ },
    [.connectivity (.disconnected disconnected)]
      ++ connected.joinByReferenceByTopic.values.map
          (fun join => .joinedTx join.joinedTx (.error .disconnected))
      ++ connected.replyTxByReferenceByJoinReferenceByTopic.values.map
          (fun replyTx => .replyTx replyTx (.error .socketDisconnected)))

def disconnectConnected (connected : Connected) : State × List Effect :=
  (.disconnected, (sendDisconnected connected .disconnect).2)

def shutdownConnected (connected : Connected) : State × List Effect :=
  (.shuttingDown, (sendDisconnected connected .shutdown).2)

def waitToReconnectConnected (now : Instant) (connected : Connected) : State × List Effect :=
  (Reconnect.wait now { connectTimeout := connected.connectTimeout, attempts := 0 },
    (sendDisconnected connected .reconnect).2)

/-! ## Connecting -/

def heartbeatPeriod : Duration := 30000000000

/-- The fresh connection that `socket_connect` makes. -/
def Connected.new (now : Instant) (connectTimeout : Duration) : Connected where
  heartbeat := { next := now + heartbeatPeriod, period := heartbeatPeriod }
  sentHeartbeatReference := none
  joinByReferenceByTopic := ∅
  joinTimeouts := []
  broadcastByTopic := ∅
  joinedChannelTxsByJoinReferenceByTopic := ∅
  replyTxByReferenceByJoinReferenceByTopic := ∅
  connectTimeout

def socketConnect (now : Instant) (reconnect : Reconnect) (outcome : ConnectOutcome) :
    Except (ConnectError × Reconnect) State × List Effect :=
  match outcome with
  | .connected =>
      (.ok (.connected (Connected.new now reconnect.connectTimeout)), [.connectivity .connected])
  | .error error => (.error (.webSocket error, reconnect), [.statusError error])
  | .timeout => (.error (.timeout, reconnect), [])

/-- The state after a failed `socket_connect`: `strategy` is the user's `ReconnectStrategy`. -/
def waitAfterFailure (strategy : Option (Nat → Duration)) (now : Instant) (reconnect : Reconnect) :
    State :=
  match strategy with
  | some sleepDuration =>
      .waitingToReconnect (now + sleepDuration reconnect.attempts.toNat) reconnect.next
  | none => reconnect.wait now

def connect (strategy : Option (Nat → Duration)) (now : Instant) (state : State)
    (connect : Connect) (outcome : ConnectOutcome) : Panics (State × List Effect) :=
  let answer result := Effect.connectedTx connect.connectedTx result
  match state with
  | .neverConnected | .disconnected =>
      match socketConnect now connect.reconnect outcome with
      | (.ok state, effects) => some (state, effects ++ [answer (.ok ())])
      | (.error (connectError, reconnect), effects) =>
          some (waitAfterFailure strategy now reconnect, effects ++ [answer (.error connectError)])
  | .waitingToReconnect sleep _ =>
      some (state, [answer (.error (.waitingToReconnect sleep))])
  | .connected _ => some (state, [answer (.ok ())])
  | .shuttingDown => some (state, [answer (.error .shuttingDown)])
  -- unreachable!("Connect should not be called when socket is shutdown")
  | .shutDown => none

def reconnect (strategy : Option (Nat → Duration)) (now : Instant) (reconnect : Reconnect)
    (outcome : ConnectOutcome) : State × List Effect :=
  match socketConnect now reconnect outcome with
  | (.ok state, effects) => (state, effects)
  | (.error (_, reconnect), effects) => (waitAfterFailure strategy now reconnect, effects)

/-! ## State commands -/

/-- An error of `socket.close` is only logged. -/
def disconnect (state : State) (disconnectedTx : TxId) : State × List Effect :=
  match state with
  | .connected connected =>
      let (next, effects) := disconnectConnected connected
      (next, [.close] ++ effects ++ [.disconnectedTx disconnectedTx])
  | _ => (state, [.disconnectedTx disconnectedTx])

def shutdown (state : State) : State × List Effect :=
  match state with
  | .connected connected =>
      let (next, effects) := shutdownConnected connected
      (next, [.close] ++ effects)
  | _ => (.shuttingDown, [])

def updateState (strategy : Option (Nat → Duration)) (now : Instant) (state : State)
    (command : StateCommand) (outcome : ConnectOutcome) : Panics (State × List Effect) :=
  match command with
  | .connect c => connect strategy now state c outcome
  | .disconnect disconnectedTx => some (disconnect state disconnectedTx)
  | .shutdown => some (shutdown state)

/-- The state in which `spawn_channel` starts a channel listener. -/
def channelState : State → Channel.State
  | .neverConnected | .disconnected | .waitingToReconnect _ _ => .waitingForSocketToConnect none
  | .connected _ => .waitingToJoin
  | .shuttingDown => .shuttingDown
  | .shutDown => .shutDown

def spawnChannel (state : State) (spawn : ChannelSpawn) (uuid : Uuid) (delivered : Bool) :
    State × List Effect :=
  (state, [.spawned spawn (JoinReference.new uuid) (channelState state) delivered])

/-! ## Messages from the server -/

/-- A message that was decoded; only `handle_push` can suspend the listener. -/
def handleMessage (now : Instant) (connected : Connected) (message : Message) (fresh : TxId) :
    Iteration :=
  match message with
  | .control control =>
      if control.event = .phoenix .reply ∧ control.reference = connected.sentHeartbeatReference then
        .next (.connected { connected with
          sentHeartbeatReference := none
          heartbeat := connected.heartbeat.reset now }) []
      else .next (.connected connected) []
  | .reply reply =>
      if reply.event = .phoenix .heartbeat then .next (.connected connected) []
      else
        let (connected, effects) := connected.handleReply reply fresh
        .next (.connected connected) effects
  | .push push =>
      match connected.pushTx push with
      | some pushTx => .push connected pushTx push
      | none => .next (.connected connected) []
  | .broadcast broadcast =>
      let (connected, effects) := connected.handleBroadcast broadcast
      .next (.connected connected) effects

def handleDecoded (now : Instant) (connected : Connected)
    (decoded : Except MessageDecodingError Message) (fresh : TxId) : Iteration :=
  match decoded with
  | .ok message => handleMessage now connected message fresh
  | .error _ => .next (.connected connected) []

def handleSocketMessage (now : Instant) (connected : Connected) (message : SocketMessage)
    (sent : Except WebSocketError Unit) (fresh : TxId) : Iteration :=
  match message with
  | .ping data =>
      match sent with
      | .ok () => .next (.connected connected) [.pong data]
      | .error _ =>
          let (state, effects) := waitToReconnectConnected now connected
          .next state effects
  | .pong _ => .next (.connected connected) []
  | .close _ =>
      let (state, effects) := waitToReconnectConnected now connected
      .next state ([.close] ++ effects)
  | .text _ | .binary _ =>
      match Message.decode message with
      | some decoded => handleDecoded now connected decoded fresh
      | none => .panic
  -- tungstenite::Message::Frame(_) => unreachable!()
  | .frame => .panic

def handleSocketError (now : Instant) (connected : Connected) (error : WebSocketError) :
    Iteration :=
  let waitToReconnect :=
    let (state, effects) := waitToReconnectConnected now connected
    Iteration.next state effects
  match error with
  | .connectionClosed => waitToReconnect
  | .alreadyClosed => waitToReconnect
  | .io => waitToReconnect
  | .tls => waitToReconnect
  | .capacity => .next (.connected connected) []
  | .protocol => waitToReconnect
  | .writeBufferFull => .next (.connected connected) []
  | .utf8 => .next (.connected connected) []
  | .attackAttempt => .exit (.error .attackAttempt)
  | .url => .exit (.error .url)
  | .http => .exit (.error .http)
  | .httpFormat => .exit (.error .httpFormat)

def handleSocketResult (now : Instant) (connected : Connected)
    (result : Except WebSocketError SocketMessage) (sent : Except WebSocketError Unit)
    (fresh : TxId) : Iteration :=
  match result with
  | .ok message => handleSocketMessage now connected message sent fresh
  | .error error => handleSocketError now connected error

/-! ## Commands of the channels -/

def joinMessage (join : Join) (uuid : Uuid) : Message :=
  .push {
    topic := join.topic
    eventPayload := { event := .phoenix .join, payload := join.payload }
    joinReference := join.joinReference
    reference := some (Reference.new uuid) }

def startJoin (now : Instant) (connected : Connected) (join : Join) (uuid : Uuid)
    (sent : Except WebSocketError Unit) : Panics (State × List Effect) := do
  let message := joinMessage join uuid
  let _data ← unwrap (← message.encode)
  match sent with
  | .ok () =>
      return (.connected { connected with
        joinByReferenceByTopic :=
          connected.joinByReferenceByTopic.put join.topic join.joinReference join
        joinTimeouts :=
          connected.joinTimeouts ++ [⟨join.deadline, join.key, join.joinedTx⟩] },
        [.write message (.join join.joinedTx)])
  -- `join`, and `joined_tx` with it, is dropped here
  | .error _ => return waitToReconnectConnected now connected

def leaveMessage (leave : Leave) (uuid : Uuid) : Message :=
  .push {
    topic := leave.topic
    eventPayload := { event := .phoenix .leave, payload := .value .null }
    joinReference := leave.joinReference
    reference := some (Reference.new uuid) }

def leave (now : Instant) (connected : Connected) (leave : Leave) (uuid : Uuid)
    (sent : Except WebSocketError Unit) : Panics (State × List Effect) := do
  let message := leaveMessage leave uuid
  let _data ← unwrap (← message.encode)
  match sent with
  | .ok () =>
      let (senders, connected) := connected.removeJoinedChannelTxs leave.key
      return (.connected connected,
        [.write message (.leave leave.ticket)]
          ++ (senders.map (fun senders => Effect.memberLeftTx senders.left)).toList
          ++ [.leftTx leave.leftTx (.ok ())])
  | .error webSocketError =>
      let (state, effects) := waitToReconnectConnected now connected
      return (state, effects ++ [.leftTx leave.leftTx (.error (.webSocketError webSocketError))])

def updateChannelState (now : Instant) (connected : Connected) (command : ChannelStateCommand)
    (uuid : Uuid) (sent : Except WebSocketError Unit) : Panics (State × List Effect) :=
  match command with
  | .join join => startJoin now connected join uuid sent
  | .leave l => leave now connected l uuid sent

def callMessage (call : Call) (uuid : Uuid) : Message :=
  .push {
    topic := call.topic
    eventPayload := call.eventPayload
    joinReference := call.joinReference
    reference := some (Reference.new uuid) }

def call (now : Instant) (connected : Connected) (call : Call) (uuid : Uuid)
    (sent : Except WebSocketError Unit) : Panics (State × List Effect) := do
  let message := callMessage call uuid
  let _data ← unwrap (← message.encode)
  match sent with
  | .ok () =>
      return (.connected { connected with
        replyTxByReferenceByJoinReferenceByTopic :=
          connected.replyTxByReferenceByJoinReferenceByTopic.put call.topic call.joinReference
            (Reference.new uuid) call.replyTx },
        [.write message (.call call.replyTx)])
  | .error webSocketError =>
      let (state, effects) := waitToReconnectConnected now connected
      return (state, [.replyTx call.replyTx (.error (.webSocketError webSocketError))] ++ effects)

def castMessage (cast : Cast) (uuid : Uuid) : Message :=
  .push {
    topic := cast.topic
    eventPayload := cast.eventPayload
    joinReference := cast.joinReference
    reference := some (Reference.new uuid) }

def cast (now : Instant) (connected : Connected) (cast : Cast) (uuid : Uuid)
    (sent : Except WebSocketError Unit) : Panics (State × List Effect) := do
  let message := castMessage cast uuid
  let _data ← unwrap (← message.encode)
  match sent with
  | .ok () => return (.connected connected, [.write message (.cast cast.ticket)])
  | .error _ => return waitToReconnectConnected now connected

def send (now : Instant) (connected : Connected) (command : ChannelSendCommand) (uuid : Uuid)
    (sent : Except WebSocketError Unit) : Panics (State × List Effect) :=
  match command with
  | .call c => call now connected c uuid sent
  | .cast c => cast now connected c uuid sent

def heartbeatMessage (reference : Reference) : Message :=
  .control {
    event := .phoenix .heartbeat
    reference := some reference
    payload := .value .null }

def heartbeat (now : Instant) (connected : Connected) (uuid : Uuid)
    (sent : Except WebSocketError Unit) : Panics (State × List Effect) := do
  match connected.sentHeartbeatReference with
  | some _ => return (.connected connected, [])
  | none =>
      let reference := Reference.heartbeat uuid
      let message := heartbeatMessage reference
      let _data ← unwrap (← message.encode)
      match sent with
      | .ok () =>
          return (.connected { connected with sentHeartbeatReference := some reference },
            [.write message .heartbeat])
      | .error _ => return waitToReconnectConnected now connected

/-! ## One iteration of `listen` -/

/-- A connect attempt that was started at `createdAt` may time out from its deadline on. -/
def ConnectOutcome.possible (now createdAt : Instant) (timeout : Duration) :
    ConnectOutcome → Bool
  | .timeout => createdAt + timeout ≤ now
  | _ => true

def StateCommand.possible (now : Instant) (outcome : ConnectOutcome) : StateCommand → Bool
  | .connect c => outcome.possible now c.createdAt c.timeout
  | _ => true

/-- The branch `input` of the `select!` in `state`; `none` where that `select!` has no such branch
or it is not ready. `select!` picks any branch that is ready. -/
def select (strategy : Option (Nat → Duration)) (now : Instant) (fresh : TxId) (state : State)
    (input : Input) : Option Iteration :=
  match input with
  | .socketResult result sent =>
      match state with
      | .connected connected => some (handleSocketResult now connected result sent fresh)
      | _ => none
  | .channelSpawn spawn uuid delivered =>
      if state.serves then
        some (Iteration.ofPanics (some (spawnChannel state spawn uuid delivered)))
      else none
  | .stateCommand command outcome =>
      if state.serves && command.possible now outcome then
        some (Iteration.ofPanics (updateState strategy now state command outcome))
      else none
  | .channelStateCommand command uuid sent =>
      match state with
      | .connected connected =>
          some (Iteration.ofPanics (updateChannelState now connected command uuid sent))
      | _ => none
  | .channelSendCommand command uuid sent =>
      match state with
      | .connected connected => some (Iteration.ofPanics (send now connected command uuid sent))
      | _ => none
  | .joinTimeout index =>
      match state with
      | .connected connected =>
          match connected.joinTimeouts[index]? with
          | some timeout =>
              if timeout.deadline ≤ now then
                let connected :=
                  { connected with joinTimeouts := connected.joinTimeouts.eraseIdx index }
                let (connected, effects) := connected.joinTimedOut timeout.key
                some (.next (.connected connected) effects)
              else none
          | none => none
      | _ => none
  | .heartbeat uuid sent =>
      match state with
      | .connected connected =>
          if connected.heartbeat.next ≤ now then
            let connected := { connected with heartbeat := connected.heartbeat.tick now }
            some (Iteration.ofPanics (heartbeat now connected uuid sent))
          else none
      | _ => none
  | .sleepElapsed outcome =>
      match state with
      | .waitingToReconnect sleep reconnect =>
          if sleep ≤ now && outcome.possible now sleep reconnect.connectTimeout then
            some (Iteration.ofPanics (some (Socket.reconnect strategy now reconnect outcome)))
          else none
      | _ => none
  | .closed =>
      match state with
      | .neverConnected | .disconnected => some (.exit (.ok ()))
      | _ => none
  | .stop =>
      match state with
      | .shuttingDown | .shutDown => some (.exit (.ok ()))
      | _ => none

end PhoenixChannels.Socket
