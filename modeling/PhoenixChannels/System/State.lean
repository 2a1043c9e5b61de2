import PhoenixChannels.Channel.World
import PhoenixChannels.Socket.World

/-!
# The whole client

The socket listener, the channel listeners it has spawned, the queues between them, and the calls of
`ffi/socket.rs` and `ffi/channel.rs` that users have made. A `oneshot` channel is not a part of the
state of its own: its result is looked up in what the listeners have done, and its sender is dropped
when nobody holds it any more.
-/

namespace PhoenixChannels

/-! ## Calls of users -/

inductive Request
  | connect (timeout : Duration)
  | disconnect
  | shutdown
  | channel (topic : Topic) (payload : Option Payload)
  | channelJoin (channel : JoinReference) (timeout : Duration)
  | channelCast (channel : JoinReference) (eventPayload : EventPayload)
  | channelCall (channel : JoinReference) (eventPayload : EventPayload) (timeout : Duration)
  | channelLeave (channel : JoinReference)
  | channelShutdown (channel : JoinReference)
deriving Repr

namespace Request

/-- The channel whose function is called; `none` for the socket. -/
def channel? : Request → Option JoinReference
  | channelJoin c _ | channelCast c _ | channelCall c _ _ | channelLeave c | channelShutdown c => some c
  | _ => none

/-- `Socket::shutdown` and `Channel::shutdown`, which return what `listener_shutdown` returns. -/
def isShutdown : Request → Bool
  | shutdown | channelShutdown _ => true
  | _ => false

end Request

inductive ApiError
  | socketShutdown (error : Socket.ShutdownError)
  | channelShutdown (error : Channel.ShutdownError)
  | connect (error : Socket.ConnectError)
  | join (error : Channel.JoinError)
  | call (error : Channel.CallError)
  | leave (error : Channel.LeaveError)
  | timeout
deriving Repr

abbrev ApiResult := Except ApiError (Option Payload)

inductive Phase
  /-- Before the command is in its queue. -/
  | sending
  /-- Awaits a `oneshot` channel, until the deadline if there is one. -/
  | waiting (tx : TxId) (deadline : Option Instant)
  /-- In `listener_shutdown`, before the join handle is taken. -/
  | closing
  /-- In `listener_shutdown`, awaiting the join handle it took. -/
  | joining
  | returned (result : ApiResult)
  | panicked (reason : Panic)

namespace Phase

def isOver : Phase → Bool
  | returned _ | panicked _ => true
  | _ => false

end Phase

structure Operation where
  request : Request
  createdAt : Instant
  phase : Phase

/-! ## The state -/

structure System where
  socket : Socket.World
  /-- How many of the effects of the socket listener the rest of the system has seen. -/
  delivered : Nat
  /-- The join handle of the socket listener was not taken yet. -/
  joinHandle : Bool
  stateCommandRx : List Socket.StateCommand
  channelSpawnRx : List Socket.ChannelSpawn
  channelStateCommandRx : List ChannelStateCommand
  channelSendCommandRx : List ChannelSendCommand
  /-- The push queues of the joined channels. -/
  pushRx : TxId → List Push
  channels : Dict JoinReference Channel.World
  operations : List Operation
  /-- The next `TxId` for the oneshot channels and tickets of users and channel listeners. -/
  fresh : TxId

namespace System

def init : System where
  socket := .init
  delivered := 0
  joinHandle := true
  stateCommandRx := []
  channelSpawnRx := []
  channelStateCommandRx := []
  channelSendCommandRx := []
  pushRx := fun _ => []
  channels := ∅
  operations := []
  fresh := 0

/-- `mpsc::channel(50)` of the socket. -/
def socketCapacity : Nat := 50

/-- `mpsc::channel(10)` of a channel, and of the pushes of a joined channel. -/
def channelCapacity : Nat := 10

def pushCapacity : Nat := 10

/-! ## What the socket listener has done -/

/-- The effects that the rest of the system has seen. -/
def visible (s : System) : List Socket.Effect := s.socket.effects.take s.delivered

/-- `broadcast::channel(1)` -/
def connectivity (s : System) : BroadcastQueue Connectivity where
  capacity := BroadcastQueue.roundedCapacity 1
  sent := Socket.connectivities s.visible

/-- `broadcast::channel::<Broadcast>(50)` -/
def broadcasts (s : System) (tx : TxId) : BroadcastQueue Broadcast where
  capacity := BroadcastQueue.roundedCapacity 50
  sent := s.visible.filterMap fun
    | .broadcastTx tx' broadcast => if tx' = tx then some broadcast else none
    | _ => none

end System

/-! ## Who holds which sender -/

/-- The `oneshot` sender that an effect sends into, and so consumes. -/
def Socket.Effect.tx? : Socket.Effect → Option TxId
  | connectedTx tx _ | disconnectedTx tx | joinedTx tx _ | leftTx tx _ | replyTx tx _ => some tx
  | spawned spawn _ _ _ => some spawn.sender
  | _ => none

def Socket.StateCommand.tx? : Socket.StateCommand → Option TxId
  | connect c => some c.connectedTx
  | disconnect tx => some tx
  | shutdown => none

def ChannelStateCommand.tx : ChannelStateCommand → TxId
  | join j => j.joinedTx
  | leave l => l.leftTx

def ChannelSendCommand.tx? : ChannelSendCommand → Option TxId
  | call c => some c.replyTx
  | cast _ => none

def Socket.Connected.heldTxs (connected : Socket.Connected) : List TxId :=
  connected.joinByReferenceByTopic.values.map Join.joinedTx
    ++ connected.replyTxByReferenceByJoinReferenceByTopic.values

namespace Channel

def StateCommand.tx : StateCommand → TxId
  | join _ _ joinedTx => joinedTx
  | leave leftTx => leftTx

def SendCommand.tx? : SendCommand → Option TxId
  | cast _ _ => none
  | call _ replyTx => some replyTx

def State.heldTxs : State → List TxId
  | joining j => j.channelJoinedTxs
  | leaving l => l.channelLeftTxs
  | _ => []

def SocketCall.heldTxs : SocketCall → List TxId
  | join state _ _ channelJoinedTxs => state.heldTxs ++ channelJoinedTxs
  | leaveJoining joining leftTx => joining.channelJoinedTxs ++ [leftTx]
  | leaveJoined _ leftTx => [leftTx]
  | cast _ _ _ => []
  | call _ _ replyTx => [replyTx]

def Task.heldTxs : Task → List TxId
  | selecting state _ _ => state.heldTxs
  | calling call => call.heldTxs
  | publishing state => state.heldTxs
  | exited _ | panicked _ => []

def World.heldTxs (w : World) : List TxId :=
  w.stateCommandRx.map StateCommand.tx ++ w.sendCommandRx.filterMap SendCommand.tx?
    ++ w.task.heldTxs

/-- The joined state that a task holds, also while it is suspended. -/
def Task.joined? : Task → Option Joined
  | selecting (.joined j) _ _ | publishing (.joined j) => some j
  | calling (.leaveJoined j _) | calling (.cast j _ _) | calling (.call j _ _) => some j
  | _ => none

/-- The joining state that a task holds, also while it is suspended. -/
def Task.joining? : Task → Option Joining
  | selecting (.joining j) _ _ | publishing (.joining j) => some j
  | calling (.leaveJoining j _) => some j
  | _ => none

end Channel

namespace System

/-- The effects that the running handler has yet to perform. -/
def undelivered (s : System) : List Socket.Effect := s.socket.effects.drop s.delivered

/-- The senders of users and channel listeners that somebody still holds. -/
def heldTxs (s : System) : List TxId :=
  s.stateCommandRx.filterMap Socket.StateCommand.tx?
    ++ s.channelSpawnRx.map Socket.ChannelSpawn.sender
    ++ s.channelStateCommandRx.map ChannelStateCommand.tx
    ++ s.channelSendCommandRx.filterMap ChannelSendCommand.tx?
    ++ (s.socket.task.connection.map Socket.Connected.heldTxs).getD []
    ++ s.undelivered.filterMap Socket.Effect.tx?
    ++ (Dict.values s.channels).flatMap Channel.World.heldTxs

/-- A `oneshot` channel by the result that was sent, if there is one. -/
def oneshot {α : Type} (s : System) (tx : TxId) (result : Option α) : Oneshot α :=
  match result with
  | some a => .sent a
  | none => if tx ∈ s.heldTxs then .pending else .closed

def joined (s : System) (tx : TxId) : Oneshot (Except Socket.JoinError JoinedChannelReceivers) :=
  s.oneshot tx (s.visible.findSome? fun
    | .joinedTx tx' result => if tx' = tx then some result else none
    | _ => none)

def left (s : System) (tx : TxId) : Oneshot (Except Channel.LeaveError Unit) :=
  s.oneshot tx (s.visible.findSome? fun
    | .leftTx tx' result => if tx' = tx then some result else none
    | _ => none)

/-- The senders of the joined channels. -/
def joinedChannelSenders (s : System) : List Socket.JoinedChannelSenders :=
  match s.socket.task.connection with
  | some connected => connected.joinedChannelTxsByJoinReferenceByTopic.values
  | none => []

def memberLeft (s : System) (tx : TxId) : Oneshot Unit :=
  if s.visible.any (fun
      | .memberLeftTx tx' => tx' = tx
      | _ => false) then .sent ()
  else if s.joinedChannelSenders.any (fun senders => senders.left = tx)
      || s.undelivered.any (fun
        | .memberLeftTx tx' => tx' = tx
        | _ => false) then .pending
  else .closed

def pushClosed (s : System) (tx : TxId) : Bool :=
  s.joinedChannelSenders.all (fun senders => senders.push ≠ tx)

def broadcastClosed (s : System) (tx : TxId) : Bool :=
  match s.socket.task.connection with
  | some connected => (Dict.values connected.broadcastByTopic).all (fun sender => sender.tx ≠ tx)
  | none => true

/-- What a channel listener finds when it polls. -/
def surroundings (s : System) : Channel.Surroundings where
  now := s.socket.now
  connectivity := s.connectivity
  connectivityClosed := !s.socket.task.isRunning
  joined := s.joined
  left := s.left
  memberLeft := s.memberLeft
  pushes := s.pushRx
  pushClosed := s.pushClosed
  broadcasts := s.broadcasts
  broadcastClosed := s.broadcastClosed

/-- The receiver of a push queue: with the joined channel, or in the answer to its join that the
channel has not read yet. -/
def holdsPushRx (s : System) (w : Channel.World) (tx : TxId) : Bool :=
  w.task.joined?.any (fun joined => joined.pushRx = tx)
    || w.task.joining?.any (fun joining => s.socket.effects.any (fun
      | .joinedTx tx' (.ok receivers) => tx' = joining.socketJoinedRx && receivers.push = tx
      | _ => false))

def pushRxAlive (s : System) (tx : TxId) : Bool :=
  (Dict.values s.channels).any (fun w => s.holdsPushRx w tx)

end System

/-! ## The events of a channel -/

def Channel.Effect.event? : Channel.Effect → Option EventPayload
  | event eventPayload => some eventPayload
  | _ => none

/-- `event_payload_tx` of a channel, a `broadcast::channel(10)`. -/
def System.eventPayloads (s : System) (c : JoinReference) : BroadcastQueue EventPayload where
  capacity := BroadcastQueue.roundedCapacity 10
  sent := ((s.channels.lookup c).map (fun w => w.effects.filterMap Channel.Effect.event?)).getD []

/-! ## Results of users' calls -/

/-- The result that an effect of the socket listener gives to the caller who waits on `tx`. -/
def Socket.Effect.result? (tx : TxId) : Socket.Effect → Option ApiResult
  | connectedTx tx' result =>
      if tx' = tx then some ((result.mapError .connect).map (fun _ => none)) else none
  | disconnectedTx tx' => if tx' = tx then some (.ok none) else none
  | replyTx tx' result => if tx' = tx then some ((result.mapError .call).map some) else none
  | spawned spawn _ _ delivered =>
      if spawn.sender = tx && delivered then some (.ok none) else none
  | _ => none

def Channel.Effect.result? (tx : TxId) : Channel.Effect → Option ApiResult
  | joinedTx tx' result => if tx' = tx then some ((result.mapError .join).map some) else none
  | leftTx tx' result =>
      if tx' = tx then some ((result.mapError .leave).map (fun _ => none)) else none
  | _ => none

/-- The oneshot channel that a call of a user waits on. -/
def System.result (s : System) (tx : TxId) : Oneshot ApiResult :=
  s.oneshot tx ((s.visible.findSome? (Socket.Effect.result? tx)).or
    ((Dict.values s.channels).findSome? (fun w =>
      w.effects.findSome? (Channel.Effect.result? tx))))

end PhoenixChannels
