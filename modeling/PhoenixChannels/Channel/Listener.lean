import PhoenixChannels.Channel.State

/-!
# The handlers of a channel listener

`rust/channel/listener.rs`, function by function, with the calls into `rust/socket.rs` at which a
handler is suspended. `now` is the instant at which a handler runs.
-/

namespace PhoenixChannels.Channel

/-- The fields of the listener that its handlers read. -/
structure Listener where
  topic : Topic
  payload : Payload
  joinReference : JoinReference
deriving Repr

/-- What a handler does outside of the state, besides its calls into the socket. -/
inductive Effect
  | joinedTx (tx : TxId) (result : Except JoinError Payload)
  | leftTx (tx : TxId) (result : Except LeaveError Unit)
  /-- `event_payload_tx.send` -/
  | event (eventPayload : EventPayload)
  | statusError (payload : Payload)

/-- A handler that is suspended in `Socket::join`, `leave`, `cast` or `call`, with what it goes on
with. -/
inductive SocketCall
  | join (state : State) (deadline : Instant) (rejoin : Rejoin) (channelJoinedTxs : List TxId)
  | leaveJoining (joining : Joining) (leftTx : TxId)
  | leaveJoined (joined : Joined) (leftTx : TxId)
  | cast (joined : Joined) (eventPayload : EventPayload) (ticket : TxId)
  | call (joined : Joined) (eventPayload : EventPayload) (replyTx : TxId)
deriving Repr

/-- What a handler comes to. -/
inductive Flow
  | next (state : State) (effects : List Effect)
  | call (call : SocketCall)
  | exit (error : ShutdownError) (effects : List Effect)
  | panic (reason : Panic)

/-! ## Answers -/

/-- `send_join_playload_to_channel_txs` -/
def sendJoinPayloadToChannelTxs (txs : List TxId) (result : Except JoinError Payload) :
    List Effect :=
  txs.map (fun tx => .joinedTx tx result)

def sendToChannelTxs (txs : List TxId) (result : Except LeaveError Unit) : List Effect :=
  txs.map (fun tx => .leftTx tx result)

/-! ## Changes from outside -/

def connectivityChanged (now : Instant) (state : State) (connectivity : Connectivity) :
    State × List Effect :=
  match state with
  | .waitingForSocketToConnect rejoin =>
      match connectivity with
      | .connected =>
          match rejoin with
          | none => (.waitingToJoin, [])
          | some rejoin => (rejoin.wait now, [])
      | .disconnected .disconnect | .disconnected .reconnect =>
          (.waitingForSocketToConnect rejoin, [])
      | .disconnected .shutdown => (.shuttingDown, [])
  | .waitingToJoin | .left =>
      match connectivity with
      | .connected => (state, [])
      | .disconnected .disconnect | .disconnected .reconnect =>
          (.waitingForSocketToConnect none, [])
      | .disconnected .shutdown => (.shuttingDown, [])
  | .joining joining =>
      match connectivity with
      | .connected | .disconnected .reconnect =>
          (.waitingForSocketToConnect (some joining.rejoin),
            sendJoinPayloadToChannelTxs joining.channelJoinedTxs (.error .socketDisconnected))
      | .disconnected .disconnect =>
          (.waitingForSocketToConnect none,
            sendJoinPayloadToChannelTxs joining.channelJoinedTxs (.error .socketDisconnected))
      | .disconnected .shutdown =>
          (.shuttingDown,
            sendJoinPayloadToChannelTxs joining.channelJoinedTxs (.error .shuttingDown))
  | .waitingToRejoin sleep rejoin =>
      match connectivity with
      | .connected => (.waitingToRejoin sleep rejoin, [])
      | .disconnected .disconnect => (.waitingForSocketToConnect none, [])
      | .disconnected .shutdown => (.shuttingDown, [])
      | .disconnected .reconnect => (.waitingForSocketToConnect (some rejoin), [])
  | .joined joined =>
      match connectivity with
      | .connected | .disconnected .reconnect =>
          (.waitingForSocketToConnect (some joined.rejoin), [])
      | .disconnected .disconnect => (.waitingForSocketToConnect none, [])
      | .disconnected .shutdown => (.shuttingDown, [])
  | .leaving leaving =>
      let effects := sendToChannelTxs leaving.channelLeftTxs (.ok ())
      match connectivity with
      | .connected => (.left, effects)
      | .disconnected .disconnect | .disconnected .reconnect =>
          (.waitingForSocketToConnect none, effects)
      | .disconnected .shutdown => (.shuttingDown, effects)
  | .shuttingDown | .shutDown => (state, [])

/-- `State::shutdown` -/
def shutdown (state : State) : State × List Effect :=
  match state with
  | .joining joining =>
      (.shuttingDown, sendJoinPayloadToChannelTxs joining.channelJoinedTxs (.error .shuttingDown))
  | .leaving leaving =>
      (.shuttingDown, sendToChannelTxs leaving.channelLeftTxs (.error .shuttingDown))
  | _ => (.shuttingDown, [])

def pushReceived (now : Instant) (joined : Joined) (push : Push) : State × List Effect :=
  let event := push.eventPayload
  if event.event = .phoenix .close then (joined.rejoin.wait now, [.event event])
  else (.joined joined, [.event event])

def broadcastReceived (joined : Joined) (broadcast : Broadcast) : State × List Effect :=
  (.joined joined, [.event broadcast.eventPayload])

/-- `Leaving::left` -/
def Leaving.left (leaving : Leaving) (leftResult : Except LeaveError Unit) : State × List Effect :=
  (.left, sendToChannelTxs leaving.channelLeftTxs leftResult)

/-! ## Joining -/

/-- The answers that `socket_shutdown` gives before the listener ends. -/
def socketShutdown (state : State) (shutdownError : Socket.ShutdownError) : Flow :=
  match state with
  | .joining joining =>
      .exit .socketShutdown
        (sendJoinPayloadToChannelTxs joining.channelJoinedTxs
          (.error (.socketShutdown shutdownError)))
  | .leaving leaving =>
      .exit .socketShutdown
        (sendToChannelTxs leaving.channelLeftTxs (.error (.socketShutdown shutdownError)))
  | _ => .exit .socketShutdown []

def joinedResultReceived (now : Instant) (joining : Joining)
    (result : Except Socket.JoinError JoinedChannelReceivers) : State × List Effect :=
  let answer := sendJoinPayloadToChannelTxs joining.channelJoinedTxs
  match result with
  | .ok receivers =>
      (.joined {
        payload := receivers.payload
        pushRx := receivers.push
        broadcastRx := receivers.broadcast
        leftRx := receivers.left
        joinTimeout := joining.rejoin.joinTimeout }, answer (.ok receivers.payload))
  | .error (.shutdown shutdownError) =>
      (.shuttingDown, answer (.error (.socketShutdown shutdownError)))
  | .error (.rejected payload) =>
      (joining.rejoin.wait now, [.statusError payload] ++ answer (.error (.rejected payload)))
  | .error .disconnected => (joining.rejoin.wait now, answer (.error .socketDisconnected))
  | .error .timeout => (joining.rejoin.wait now, answer (.error .timeout))

/-- `joined_result_result_received` -/
def joinedResultResultReceived (now : Instant) (joining : Joining)
    (result : Except RecvError (Except Socket.JoinError JoinedChannelReceivers)) : Flow :=
  match result with
  | .ok joinedResult =>
      let (state, effects) := joinedResultReceived now joining joinedResult
      .next state effects
  | .error _ => socketShutdown (.joining joining) .alreadyJoined

def socketJoin (state : State) (createdAt : Instant) (rejoin : Rejoin)
    (channelJoinedTxs : List TxId) : Flow :=
  .call (.join state (createdAt + rejoin.joinTimeout) rejoin channelJoinedTxs)

def rejoin (now : Instant) (state : State) (rejoin : Rejoin) : Flow :=
  socketJoin state now rejoin []

def socketJoinIfNotTimedOut (now : Instant) (state : State) (createdAt : Instant)
    (timeout : Duration) (channelJoinedTx : TxId) : Flow :=
  let deadline := createdAt + timeout
  let rejoin : Rejoin := { joinTimeout := timeout, attempts := 0 }
  if now ≤ deadline then socketJoin state createdAt rejoin [channelJoinedTx]
  -- `channel_joined_tx` is dropped here
  else .next (rejoin.wait now) []

def join (now : Instant) (state : State) (createdAt : Instant) (timeout : Duration)
    (channelJoinedTx : TxId) : Flow :=
  match state with
  | .waitingForSocketToConnect _ => .panic .unreachable
  | .waitingToJoin | .leaving _ | .left =>
      socketJoinIfNotTimedOut now state createdAt timeout channelJoinedTx
  | .joining joining =>
      .next (.joining { joining with
        channelJoinedTxs := joining.channelJoinedTxs ++ [channelJoinedTx] }) []
  | .waitingToRejoin sleep _ =>
      .next state [.joinedTx channelJoinedTx (.error (.waitingToRejoin sleep))]
  | .joined joined => .next state [.joinedTx channelJoinedTx (.ok joined.payload)]
  | .shuttingDown | .shutDown => .next state [.joinedTx channelJoinedTx (.error .shuttingDown)]

/-! ## Leaving -/

def leave (state : State) (leftTx : TxId) : Flow :=
  match state with
  | .waitingForSocketToConnect _ | .waitingToJoin | .left | .shuttingDown | .shutDown =>
      .next state [.leftTx leftTx (.ok ())]
  | .joining joining => .call (.leaveJoining joining leftTx)
  | .joined joined => .call (.leaveJoined joined leftTx)
  | .waitingToRejoin _ _ => .next .left [.leftTx leftTx (.ok ())]
  | .leaving leaving =>
      .next (.leaving { leaving with channelLeftTxs := leaving.channelLeftTxs ++ [leftTx] }) []

/-! ## Commands -/

def updateState (now : Instant) (state : State) (command : StateCommand) : Flow :=
  match command with
  | .join createdAt timeout joinedTx => join now state createdAt timeout joinedTx
  | .leave leftTx => leave state leftTx

def send (joined : Joined) (command : SendCommand) : Flow :=
  match command with
  | .cast eventPayload ticket => .call (.cast joined eventPayload ticket)
  | .call eventPayload replyTx => .call (.call joined eventPayload replyTx)

/-! ## Calls into the socket -/

namespace SocketCall

/-- The command that is sent to the socket listener. A join and a leave make a oneshot channel,
here called `fresh`. -/
def command (listener : Listener) (fresh : TxId) :
    SocketCall → ChannelStateCommand ⊕ ChannelSendCommand
  | join _ deadline _ _ =>
      .inl (.join ⟨listener.topic, listener.joinReference, listener.payload, deadline, fresh⟩)
  | leaveJoining _ leftTx | leaveJoined _ leftTx =>
      .inl (.leave ⟨listener.topic, listener.joinReference, fresh, leftTx⟩)
  | cast _ eventPayload ticket =>
      .inr (.cast ⟨listener.topic, listener.joinReference, eventPayload, ticket⟩)
  | call _ eventPayload replyTx =>
      .inr (.call ⟨listener.topic, listener.joinReference, eventPayload, replyTx⟩)

/-- How the handler goes on when the queue has taken the command. -/
def sent (fresh : TxId) : SocketCall → State × List Effect
  | join state _ rejoin channelJoinedTxs =>
      (.joining { socketJoinedRx := fresh, channelJoinedTxs, rejoin },
        match state with
        | .leaving leaving => sendToChannelTxs leaving.channelLeftTxs (.error .joinBeforeLeft)
        | _ => [])
  | leaveJoining joining leftTx =>
      (.leaving { socketLeftRx := fresh, channelLeftTxs := [leftTx] },
        sendJoinPayloadToChannelTxs joining.channelJoinedTxs (.error .leavingWhileJoining))
  | leaveJoined _ leftTx => (.leaving { socketLeftRx := fresh, channelLeftTxs := [leftTx] }, [])
  | cast joined _ _ => (.joined joined, [])
  | call joined _ _ => (.joined joined, [])

/-- How the handler goes on when the socket listener is gone. -/
def failed (shutdownError : Socket.ShutdownError) : SocketCall → Flow
  | join state _ _ _ => socketShutdown state shutdownError
  | leaveJoining joining leftTx =>
      .next (.joining joining) [.leftTx leftTx (.error (.socketShutdown shutdownError))]
  | leaveJoined joined leftTx =>
      .next (.joined joined) [.leftTx leftTx (.error (.socketShutdown shutdownError))]
  | cast _ _ _ => .next .shuttingDown []
  | call _ _ _ => .next .shuttingDown []

end SocketCall

end PhoenixChannels.Channel
