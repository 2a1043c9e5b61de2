import PhoenixChannels.Message

/-!
# Errors and what the two listeners hand to each other

The error types of `rust/socket.rs`, `rust/channel.rs` and the two listeners, and the receivers a
channel listener gets when its join is finished.
-/

namespace PhoenixChannels

/-- `tungstenite::Error`, by the kinds that `handle_socket_error` tells apart. -/
inductive WebSocketError
  | connectionClosed
  | alreadyClosed
  | io
  | tls
  | capacity
  | protocol
  | writeBufferFull
  | utf8
  | attackAttempt
  | url
  | http
  | httpFormat
deriving DecidableEq, Repr

namespace Socket

inductive ShutdownError
  | alreadyJoined
  | attackAttempt
  | url
  | http
  | httpFormat
deriving DecidableEq, Repr

inductive ConnectError
  | timeout
  | webSocket (error : WebSocketError)
  | shuttingDown
  | shutdown (error : ShutdownError)
  | waitingToReconnect (deadline : Instant)
deriving DecidableEq, Repr

inductive JoinError
  | rejected (payload : Payload)
  | disconnected
  | timeout
  | shutdown (error : ShutdownError)
deriving Repr

end Socket

namespace Channel

inductive JoinError
  | timeout
  | shuttingDown
  | shutdown
  | socketShutdown (error : Socket.ShutdownError)
  | socketDisconnected
  | leavingWhileJoining
  | waitingToRejoin (deadline : Instant)
  | rejected (payload : Payload)
deriving Repr

inductive LeaveError
  | timeout
  | shuttingDown
  | shutdown
  | socketShutdown (error : Socket.ShutdownError)
  | webSocketError (error : WebSocketError)
  | rejected (payload : Payload)
  | joinBeforeLeft
deriving Repr

inductive CallError
  | shutdown
  | socketShutdown (error : Socket.ShutdownError)
  | timeout
  | webSocketError (error : WebSocketError)
  | socketDisconnected
  | reply (payload : Payload)
deriving Repr

/-- `ffi::channel::ChannelShutdownError` -/
inductive ShutdownError
  | socketShutdown
  | alreadyJoined
deriving DecidableEq, Repr

end Channel

/-- `oneshot::error::RecvError`: the sender was dropped without sending. -/
inductive RecvError
  | closed
deriving DecidableEq, Repr

/-- A `oneshot` channel, seen by its receiver. -/
inductive Oneshot (α : Type)
  | pending
  | sent (a : α)
  /-- The sender was dropped. -/
  | closed

/-- The ways in which a task panics. -/
inductive Panic
  /-- `unwrap_err` on the `Ok(())` of `listener_shutdown`. -/
  | unwrapErr
  | unreachable
  /-- `resume_unwind` with the panic of another task. -/
  | propagated
  /-- `Instant + Duration` or `Duration * u32` that does not exist. -/
  | overflow
deriving DecidableEq, Repr

/-! ## Between the listeners -/

/-- A receiver of the `broadcast` channel `tx`, about to read message number `next`. -/
structure BroadcastReceiver where
  tx : TxId
  next : Nat
deriving DecidableEq, Repr

structure JoinedChannelReceivers where
  payload : Payload
  push : TxId
  broadcast : BroadcastReceiver
  left : TxId
deriving Repr

inductive Disconnected
  | disconnect
  | shutdown
  | reconnect
deriving DecidableEq, Repr

inductive Connectivity
  | connected
  | disconnected (disconnected : Disconnected)
deriving DecidableEq, Repr

/-- Tells the socket listener to join a channel (`socket/listener.rs`). -/
structure Join where
  topic : Topic
  joinReference : JoinReference
  payload : Payload
  deadline : Instant
  joinedTx : TxId
deriving Repr

/-- Tells the socket listener to leave a channel. The `ticket` is no data of the program: it names
the call of `Channel::leave` that the command comes from, for use in histories. -/
structure Leave where
  topic : Topic
  joinReference : JoinReference
  leftTx : TxId
  ticket : TxId
deriving Repr

structure Call where
  topic : Topic
  joinReference : JoinReference
  eventPayload : EventPayload
  replyTx : TxId
deriving Repr

/-- The `ticket` names the call of `Channel::cast` that the command comes from, as in `Leave`. -/
structure Cast where
  topic : Topic
  joinReference : JoinReference
  eventPayload : EventPayload
  ticket : TxId
deriving Repr

inductive ChannelStateCommand
  | join (join : Join)
  | leave (leave : Leave)
deriving Repr

inductive ChannelSendCommand
  | call (call : Call)
  | cast (cast : Cast)
deriving Repr

/-! ## Backoff -/

/-- `saturating_add(1)` on a `u16` -/
def saturatingNext (attempts : UInt16) : UInt16 := if attempts = 65535 then attempts else attempts + 1

theorem saturatingNext_toNat (attempts : UInt16) :
    (saturatingNext attempts).toNat = min (attempts.toNat + 1) 65535 := by
  have hlt : attempts.toNat < 65536 := attempts.toNat_lt
  unfold saturatingNext
  split
  · subst attempts
    rfl
  · rename_i hne
    have hnat : attempts.toNat ≠ 65535 := fun h => hne (UInt16.toNat_inj.mp h)
    rw [UInt16.toNat_add]
    simp only [UInt16.reduceToNat]
    omega

def sleepDurationMultipliers : List Nat := [0, 1, 2, 5, 10]

def sleepDurationMultiplier (attempts : UInt16) : Nat :=
  sleepDurationMultipliers.getD (min attempts.toNat (sleepDurationMultipliers.length - 1)) 0

end PhoenixChannels
