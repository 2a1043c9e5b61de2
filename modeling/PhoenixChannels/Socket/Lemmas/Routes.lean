import PhoenixChannels.Message.Frames
import PhoenixChannels.Socket.World

/-!
# Where a message goes

The handlers of the messages choose whom they answer or pass a message on to by its addresses, never
by its payload.
-/

namespace PhoenixChannels.Socket

variable {now : Instant} {c : Connected} {m : Message} {fresh : TxId}

/-- The waiting join or call, or the broadcast channel, that an effect goes to. -/
def Effect.receiver? : Effect → Option TxId
  | joinedTx tx _ | replyTx tx _ | broadcastTx tx _ => some tx
  | _ => none

/-- Whom the handler of a message sends to; `handle_push` goes on in the next step. -/
def Iteration.receivers : Iteration → List TxId
  | push _ pushTx _ => [pushTx]
  | next _ effects => effects.filterMap Effect.receiver?
  | exit _ | panic => []

/-- The connection that the handler of a message leaves. -/
def Iteration.connection (iteration : Iteration) : Option Connected :=
  (World.outcome iteration).1.connection

theorem finishJoin_withPayload (c : Connected) (reply : Reply) (join : Join) (payload : Payload) :
    (c.finishJoin { reply with payload } join fresh).1 = (c.finishJoin reply join fresh).1 ∧
      (c.finishJoin { reply with payload } join fresh).2.filterMap Effect.receiver? =
        (c.finishJoin reply join fresh).2.filterMap Effect.receiver? := by
  unfold Connected.finishJoin
  cases reply.status <;> exact ⟨rfl, rfl⟩

theorem handleReply_withPayload (c : Connected) (reply : Reply) (payload : Payload) (fresh : TxId) :
    (c.handleReply { reply with payload } fresh).1 = (c.handleReply reply fresh).1 ∧
      (c.handleReply { reply with payload } fresh).2.filterMap Effect.receiver? =
        (c.handleReply reply fresh).2.filterMap Effect.receiver? := by
  have hkey : ({ reply with payload } : Reply).key = reply.key := rfl
  unfold Connected.handleReply
  rw [hkey]
  obtain ⟨join, c'⟩ := c.removeJoin reply.key
  cases join with
  | some join => exact finishJoin_withPayload c' reply join payload
  | none =>
      simp only []
      obtain ⟨replyTx, c''⟩ := c'.removeReplyTx reply.key reply.reference
      cases replyTx <;> exact ⟨rfl, rfl⟩

theorem handleBroadcast_withPayload (c : Connected) (b : Broadcast) (payload : Payload) :
    (c.handleBroadcast { b with eventPayload := { b.eventPayload with payload } }).1 =
        (c.handleBroadcast b).1 ∧
      (c.handleBroadcast { b with eventPayload := { b.eventPayload with payload } }).2.filterMap
        Effect.receiver? = (c.handleBroadcast b).2.filterMap Effect.receiver? := by
  unfold Connected.handleBroadcast
  cases c.broadcastByTopic.lookup b.topic <;> exact ⟨rfl, rfl⟩

/-- Another payload changes neither the receivers of a message nor the connection after it. -/
theorem handleMessage_withPayload (now : Instant) (c : Connected) (m : Message) (payload : Payload)
    (fresh : TxId) :
    (handleMessage now c (m.withPayload payload) fresh).receivers =
        (handleMessage now c m fresh).receivers ∧
      (handleMessage now c (m.withPayload payload) fresh).connection =
        (handleMessage now c m fresh).connection := by
  cases m with
  | control control =>
      simp only [Message.withPayload, handleMessage, and_self]
  | reply reply =>
      obtain ⟨hconnection, hreceivers⟩ := handleReply_withPayload c reply payload fresh
      simp only [Message.withPayload, handleMessage]
      split
      · exact ⟨rfl, rfl⟩
      · exact ⟨hreceivers, congrArg some hconnection⟩
  | push push =>
      have htx : c.pushTx { push with eventPayload := { push.eventPayload with payload } } =
          c.pushTx push := rfl
      simp only [Message.withPayload, handleMessage, htx]
      cases c.pushTx push <;> exact ⟨rfl, rfl⟩
  | broadcast b =>
      obtain ⟨hconnection, hreceivers⟩ := handleBroadcast_withPayload c b payload
      exact ⟨hreceivers, congrArg some hconnection⟩

end PhoenixChannels.Socket
