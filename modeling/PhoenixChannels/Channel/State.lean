import PhoenixChannels.Errors

/-!
# The states of a channel listener

`rust/channel/listener.rs`: the states with the data each of them owns. A `oneshot` sender or
receiver is the `TxId` of its channel; a sleep is its deadline.
-/

namespace PhoenixChannels.Channel

structure Rejoin where
  joinTimeout : Duration
  attempts : UInt16
deriving DecidableEq, Repr

structure Joining where
  socketJoinedRx : TxId
  channelJoinedTxs : List TxId
  rejoin : Rejoin
deriving Repr

structure Joined where
  payload : Payload
  pushRx : TxId
  broadcastRx : BroadcastReceiver
  leftRx : TxId
  joinTimeout : Duration
deriving Repr

structure Leaving where
  socketLeftRx : TxId
  channelLeftTxs : List TxId
deriving Repr

inductive State
  | waitingForSocketToConnect (rejoin : Option Rejoin)
  | waitingToJoin
  | joining (joining : Joining)
  | waitingToRejoin (sleep : Instant) (rejoin : Rejoin)
  | joined (joined : Joined)
  | leaving (leaving : Leaving)
  | left
  | shuttingDown
  | shutDown
deriving Repr

inductive Status
  | waitingForSocketToConnect
  | waitingToJoin
  | joining
  | waitingToRejoin (deadline : Instant)
  | joined
  | leaving
  | left
  | shuttingDown
  | shutDown
deriving DecidableEq, Repr

def State.status : State → Status
  | waitingForSocketToConnect _ => .waitingForSocketToConnect
  | waitingToJoin => .waitingToJoin
  | joining _ => .joining
  | waitingToRejoin sleep _ => .waitingToRejoin sleep
  | joined _ => .joined
  | leaving _ => .leaving
  | left => .left
  | shuttingDown => .shuttingDown
  | shutDown => .shutDown

namespace Rejoin

def next (rejoin : Rejoin) : Rejoin := { rejoin with attempts := saturatingNext rejoin.attempts }

def sleepDuration (rejoin : Rejoin) : Duration :=
  rejoin.joinTimeout * sleepDurationMultiplier rejoin.attempts

/-- `now` is the instant at which `tokio::time::sleep` is called. Instants have no end here: `clocked`
is the listener on a platform where they do. -/
def wait (now : Instant) (rejoin : Rejoin) : State :=
  .waitingToRejoin (now + rejoin.sleepDuration) rejoin.next

end Rejoin

/-- `Joined::rejoin` -/
def Joined.rejoin (joined : Joined) : Rejoin := { joinTimeout := joined.joinTimeout, attempts := 0 }

/-- A command of a caller of `Channel::join` or `Channel::leave`. -/
inductive StateCommand
  | join (createdAt : Instant) (timeout : Duration) (joinedTx : TxId)
  | leave (leftTx : TxId)
deriving Repr

inductive SendCommand
  | cast (eventPayload : EventPayload) (ticket : TxId)
  | call (eventPayload : EventPayload) (replyTx : TxId)
deriving Repr

end PhoenixChannels.Channel
