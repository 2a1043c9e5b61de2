import PhoenixChannels.Channel.State
import PhoenixChannels.Lib.NestedMap

/-!
# The state of the socket listener

`rust/socket/listener.rs`: the states, the maps of a connection, the commands, and what one
iteration of `listen` does to the rest of the system.
-/

namespace PhoenixChannels

open Channel (LeaveError CallError)

namespace Socket

/-! ## Waiting to reconnect -/

structure Reconnect where
  connectTimeout : Duration
  attempts : UInt16
deriving DecidableEq, Repr

def Reconnect.next (reconnect : Reconnect) : Reconnect :=
  { reconnect with attempts := saturatingNext reconnect.attempts }

def Reconnect.sleepDuration (reconnect : Reconnect) : Duration :=
  reconnect.connectTimeout * sleepDurationMultiplier reconnect.attempts

/-! ## The heartbeat interval -/

/-- `tokio::time::Interval`, in nanoseconds. -/
structure Interval where
  next : Instant
  period : Duration
deriving DecidableEq, Repr

def Interval.reset (now : Instant) (interval : Interval) : Interval :=
  { interval with next := now + interval.period }

/-- The interval after a tick under `MissedTickBehavior::Skip`: 5 ms late is still on time. -/
def Interval.tick (now : Instant) (interval : Interval) : Interval :=
  if interval.next + 5000000 < now then
    { interval with next := now + interval.period - (now - interval.next) % interval.period }
  else
    { interval with next := interval.next + interval.period }

/-! ## A connection -/

/-- A channel on the wire: what the futures in `join_timeouts` give, and what the maps go by. -/
structure JoinKey where
  topic : Topic
  joinReference : JoinReference
deriving DecidableEq, Repr

/-- The future `Listener::join_timeout(deadline, topic, join_reference)`. The last field is no data
of the program: it names the join that the timer was started for. -/
structure JoinTimeout where
  deadline : Instant
  key : JoinKey
  startedFor : TxId
deriving DecidableEq, Repr

structure JoinedChannelSenders where
  push : TxId
  left : TxId
deriving DecidableEq, Repr

/-- The sender of a broadcast channel, with the number of messages sent into it. -/
structure BroadcastSender where
  tx : TxId
  sent : Nat
deriving DecidableEq, Repr

def BroadcastSender.subscribe (sender : BroadcastSender) : BroadcastReceiver :=
  ⟨sender.tx, sender.sent⟩

/-- The web socket itself is the environment: its results are inputs, its frames are effects. -/
structure Connected where
  heartbeat : Interval
  sentHeartbeatReference : Option Reference
  joinByReferenceByTopic : NestedMap Topic JoinReference Join
  joinTimeouts : List JoinTimeout
  broadcastByTopic : Dict Topic BroadcastSender
  joinedChannelTxsByJoinReferenceByTopic : NestedMap Topic JoinReference JoinedChannelSenders
  replyTxByReferenceByJoinReferenceByTopic : NestedMap₃ Topic JoinReference Reference TxId
  connectTimeout : Duration

namespace Connected

/-- The pending join of a channel. -/
def pendingJoin (connected : Connected) (key : JoinKey) : Option Join :=
  connected.joinByReferenceByTopic.find key.topic key.joinReference

/-- The senders of a channel whose join was finished. -/
def joinedChannelTxs (connected : Connected) (key : JoinKey) : Option JoinedChannelSenders :=
  connected.joinedChannelTxsByJoinReferenceByTopic.find key.topic key.joinReference

/-- The caller that waits for the reply to a reference. -/
def pendingCall (connected : Connected) (key : JoinKey) (reference : Reference) : Option TxId :=
  connected.replyTxByReferenceByJoinReferenceByTopic.find key.topic key.joinReference reference

end Connected

end Socket

/-! The keys under which the maps hold what belongs to a command or a reply. -/

open Socket (JoinKey)

def Join.key (join : Join) : JoinKey := ⟨join.topic, join.joinReference⟩

def Leave.key (leave : Leave) : JoinKey := ⟨leave.topic, leave.joinReference⟩

def Call.key (call : Call) : JoinKey := ⟨call.topic, call.joinReference⟩

def Cast.key (cast : Cast) : JoinKey := ⟨cast.topic, cast.joinReference⟩

def Reply.key (reply : Reply) : JoinKey := ⟨reply.topic, reply.joinReference⟩

def Push.key (push : Push) : JoinKey := ⟨push.topic, push.joinReference⟩

def ChannelSendCommand.key : ChannelSendCommand → JoinKey
  | call c => c.key
  | cast c => c.key

namespace Socket

inductive State
  | neverConnected
  | connected (connected : Connected)
  | waitingToReconnect (sleep : Instant) (reconnect : Reconnect)
  | disconnected
  | shuttingDown
  | shutDown

inductive Status
  | neverConnected
  | connected
  | waitingToReconnect (deadline : Instant)
  | disconnected
  | shuttingDown
  | shutDown
deriving DecidableEq, Repr

namespace State

def status : State → Status
  | neverConnected => .neverConnected
  | connected _ => .connected
  | waitingToReconnect sleep _ => .waitingToReconnect sleep
  | disconnected => .disconnected
  | shuttingDown => .shuttingDown
  | shutDown => .shutDown

/-- The states in which `listen` receives channel spawns and state commands. -/
def serves : State → Bool
  | shuttingDown | shutDown => false
  | _ => true

end State

/-- `Reconnect::wait`, called at the instant `now`. Instants have no end here: `clocked` is the listener
on a platform where they do. -/
def Reconnect.wait (now : Instant) (reconnect : Reconnect) : State :=
  .waitingToReconnect (now + reconnect.sleepDuration) reconnect.next

/-! ## Commands -/

structure Connect where
  createdAt : Instant
  timeout : Duration
  connectedTx : TxId
deriving DecidableEq, Repr

def Connect.reconnect (connect : Connect) : Reconnect :=
  { connectTimeout := connect.timeout, attempts := 0 }

inductive StateCommand
  | connect (connect : Connect)
  | disconnect (disconnectedTx : TxId)
  | shutdown
deriving DecidableEq, Repr

structure ChannelSpawn where
  topic : Topic
  payload : Option Payload
  sender : TxId
deriving Repr

/-! ## Effects -/

/-- The command that a frame was written for. -/
inductive Origin
  | join (joinedTx : TxId)
  | leave (ticket : TxId)
  | call (replyTx : TxId)
  | cast (ticket : TxId)
  | heartbeat
deriving DecidableEq, Repr

inductive Effect
  /-- The frame `message.encode()` was written to the web socket. -/
  | write (message : Message) (origin : Origin)
  | pong (data : List UInt8)
  | close
  | connectivity (connectivity : Connectivity)
  | statusError (error : WebSocketError)
  | connectedTx (tx : TxId) (result : Except ConnectError Unit)
  | disconnectedTx (tx : TxId)
  | joinedTx (tx : TxId) (result : Except JoinError JoinedChannelReceivers)
  | leftTx (tx : TxId) (result : Except LeaveError Unit)
  /-- `JoinedChannelSenders::left` tells the joined channel that it left. -/
  | memberLeftTx (tx : TxId)
  | replyTx (tx : TxId) (result : Except CallError Payload)
  | broadcastTx (tx : TxId) (broadcast : Broadcast)
  /-- A channel listener was spawned; `delivered` tells whether the caller was still there. -/
  | spawned (spawn : ChannelSpawn) (joinReference : JoinReference) (state : Channel.State)
      (delivered : Bool)

/-! ## Inputs -/

/-- How an attempt to open a web socket ends. -/
inductive ConnectOutcome
  | connected
  | error (error : WebSocketError)
  | timeout
deriving DecidableEq, Repr

/-- A branch of the `select!` in `listen`, with what it received and how the web socket operations
of its handler end. A handler that makes a new reference gets the uuid it draws. -/
inductive Input
  | socketResult (result : Except WebSocketError SocketMessage) (sent : Except WebSocketError Unit)
  | channelSpawn (spawn : ChannelSpawn) (uuid : Uuid) (delivered : Bool)
  | stateCommand (command : StateCommand) (outcome : ConnectOutcome)
  | channelStateCommand (command : ChannelStateCommand) (uuid : Uuid)
      (sent : Except WebSocketError Unit)
  | channelSendCommand (command : ChannelSendCommand) (uuid : Uuid)
      (sent : Except WebSocketError Unit)
  | joinTimeout (index : Nat)
  | heartbeat (uuid : Uuid) (sent : Except WebSocketError Unit)
  | sleepElapsed (outcome : ConnectOutcome)
  /-- `else`: every sender of the queues is gone. -/
  | closed
  /-- `State::ShuttingDown | State::ShutDown => break Ok(())` -/
  | stop

/-- The uuid that the handler of an input draws. -/
def Input.uuid? : Input → Option Uuid
  | channelSpawn _ uuid _ => some uuid
  | channelStateCommand _ uuid _ => some uuid
  | channelSendCommand _ uuid _ => some uuid
  | heartbeat uuid _ => some uuid
  | _ => none

/-- The reply that the web socket gave. -/
def Input.reply? : Input → Option Reply
  | socketResult (.ok received) _ =>
      match Message.decode received with
      | some (.ok (.reply reply)) => some reply
      | _ => none
  | _ => none

/-- What one iteration of the loop in `listen` comes to. -/
inductive Iteration
  | next (state : State) (effects : List Effect)
  /-- The listener is inside `push_tx.send(push).await` of `handle_push`. -/
  | push (connected : Connected) (pushTx : TxId) (push : Push)
  | exit (result : Except ShutdownError Unit)
  | panic

def Iteration.ofPanics : Panics (State × List Effect) → Iteration
  | some (state, effects) => next state effects
  | none => panic

end Socket

end PhoenixChannels
