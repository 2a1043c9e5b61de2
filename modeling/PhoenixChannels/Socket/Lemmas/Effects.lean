import PhoenixChannels.Socket.Lemmas.Connection
import PhoenixChannels.Socket.Lemmas.Runs

/-!
# What each effect comes from

Every effect in a trace, with the state and the input of the iteration that had it.
-/

namespace PhoenixChannels.Socket

/-- The iterations that have an effect. -/
inductive EffectCause (time : Instant) : State → Input → Effect → Prop
  | quiet {state input effect} : effect.QuietFor input → EffectCause time state input effect
  | spawned {state spawn uuid delivered} :
      EffectCause time state (.channelSpawn spawn uuid delivered)
        (.spawned spawn (JoinReference.new uuid) (channelState state) delivered)
  | joinFinished {c received sent} (r : Reply) (join : Join)
      (result : Except JoinError JoinedChannelReceivers) :
      Message.decode received = some (.ok (.reply r)) → c.pendingJoin r.key = some join →
      (∃ joined, r.status = .ok ∧ result = .ok joined) ∨
        (r.status = .error ∧ result = .error (.rejected r.payload)) →
      EffectCause time (.connected c) (.socketResult (.ok received) sent)
        (.joinedTx join.joinedTx result)
  | replied {c received sent} (r : Reply) (replyTx : TxId) :
      Message.decode received = some (.ok (.reply r)) → c.pendingJoin r.key = none →
      c.pendingCall r.key r.reference = some replyTx →
      EffectCause time (.connected c) (.socketResult (.ok received) sent)
        (.replyTx replyTx (match r.status with
          | .ok => .ok r.payload
          | .error => .error (.reply r.payload)))
  | broadcast {c received sent} (b : Broadcast) (tx : TxId) :
      Message.decode received = some (.ok (.broadcast b)) →
      EffectCause time (.connected c) (.socketResult (.ok received) sent) (.broadcastTx tx b)
  | joinWritten {c} (j : Join) (uuid : Uuid) :
      EffectCause time (.connected c) (.channelStateCommand (.join j) uuid (.ok ()))
        (.write (joinMessage j uuid) (.join j.joinedTx))
  | leaveWritten {c} (l : Leave) (uuid : Uuid) :
      EffectCause time (.connected c) (.channelStateCommand (.leave l) uuid (.ok ()))
        (.write (leaveMessage l uuid) (.leave l.ticket))
  | memberLeft {c} (l : Leave) (uuid : Uuid) (senders : JoinedChannelSenders) :
      c.joinedChannelTxs l.key = some senders →
      EffectCause time (.connected c) (.channelStateCommand (.leave l) uuid (.ok ()))
        (.memberLeftTx senders.left)
  | left {c} (l : Leave) (uuid : Uuid) :
      EffectCause time (.connected c) (.channelStateCommand (.leave l) uuid (.ok ()))
        (.leftTx l.leftTx (.ok ()))
  | leaveFailed {c} (l : Leave) (uuid : Uuid) (error : WebSocketError) :
      EffectCause time (.connected c) (.channelStateCommand (.leave l) uuid (.error error))
        (.leftTx l.leftTx (.error (.webSocketError error)))
  | callWritten {c} (k : Call) (uuid : Uuid) :
      EffectCause time (.connected c) (.channelSendCommand (.call k) uuid (.ok ()))
        (.write (callMessage k uuid) (.call k.replyTx))
  | callFailed {c} (k : Call) (uuid : Uuid) (error : WebSocketError) :
      EffectCause time (.connected c) (.channelSendCommand (.call k) uuid (.error error))
        (.replyTx k.replyTx (.error (.webSocketError error)))
  | castWritten {c} (k : Cast) (uuid : Uuid) :
      EffectCause time (.connected c) (.channelSendCommand (.cast k) uuid (.ok ()))
        (.write (castMessage k uuid) (.cast k.ticket))
  | timedOut {c} (index : Nat) (timer : JoinTimeout) (join : Join) :
      c.joinTimeouts[index]? = some timer → timer.deadline ≤ time →
      c.pendingJoin timer.key = some join →
      EffectCause time (.connected c) (.joinTimeout index)
        (.joinedTx join.joinedTx (.error .timeout))
  | disconnected {state tx outcome} :
      EffectCause time state (.stateCommand (.disconnect tx) outcome) (.disconnectedTx tx)
  | lost {c input} (d : Disconnected) :
      EffectCause time (.connected c) input (.connectivity (.disconnected d))
  | joinLost {c input} (key : JoinKey) (join : Join) :
      c.pendingJoin key = some join →
      EffectCause time (.connected c) input (.joinedTx join.joinedTx (.error .disconnected))
  | callLost {c input} (key : JoinKey) (reference : Reference) (replyTx : TxId) :
      c.pendingCall key reference = some replyTx →
      EffectCause time (.connected c) input (.replyTx replyTx (.error .socketDisconnected))
  | connected {state command} :
      state = .neverConnected ∨ state = .disconnected →
      EffectCause time state (.stateCommand (.connect command) .connected)
        (.connectivity .connected)
  | reconnected {sleep reconnect} :
      sleep ≤ time →
      EffectCause time (.waitingToReconnect sleep reconnect) (.sleepElapsed .connected)
        (.connectivity .connected)

variable {time : Instant} {fresh : TxId} {c : Connected} {state : State} {input : Input}
variable {iteration : Iteration} {effect : Effect}

theorem LostEffect.cause {d : Disconnected} (h : LostEffect d input effect) :
    EffectCause time (.connected c) input effect := by
  cases h with
  | quiet hq => exact .quiet hq
  | disconnect => exact .disconnected
  | leave => exact .leaveFailed _ _ _
  | call => exact .callFailed _ _ _

theorem ConnectedIteration.cause (h : ConnectedIteration time fresh c input iteration)
    (hmem : effect ∈ (World.outcome iteration).2) :
    EffectCause time (.connected c) input effect := by
  cases h with
  | quiet heartbeat reference hr hq => exact .quiet (hq effect hmem)
  | spawned uuid =>
      obtain rfl := List.mem_singleton.mp hmem
      exact .spawned
  | reply r hd =>
      simp only [World.outcome] at hmem
      rcases c.handleReply_cases r fresh with
        ⟨join, hjoin, h⟩ | ⟨hjoin, replyTx, hcall, h⟩ | ⟨_, _, h⟩ <;> rw [h] at hmem
      · obtain ⟨result, hr, hres⟩ := (c.removeJoin r.key).2.finishJoin_effects r join fresh
        rw [hr] at hmem
        obtain rfl := List.mem_singleton.mp hmem
        exact .joinFinished r join result hd hjoin hres
      · obtain rfl := List.mem_singleton.mp hmem
        exact .replied r replyTx hd hjoin hcall
      · cases hmem
  | broadcast b hd =>
      simp only [World.outcome] at hmem
      rcases c.handleBroadcast_effects b with h | ⟨tx, h⟩ <;> rw [h] at hmem
      · cases hmem
      · obtain rfl := List.mem_singleton.mp hmem
        exact .broadcast b tx hd
  | push p pushTx hd hp => cases hmem
  | join j uuid =>
      obtain rfl := List.mem_singleton.mp hmem
      exact .joinWritten j uuid
  | leave l uuid =>
      simp only [World.outcome, Connected.removeJoinedChannelTxs_fst, List.mem_append,
        List.mem_singleton, Option.mem_toList, Option.map_eq_some_iff] at hmem
      rcases hmem with (rfl | ⟨senders, hsenders, rfl⟩) | rfl
      · exact .leaveWritten l uuid
      · exact .memberLeft l uuid senders hsenders
      · exact .left l uuid
  | call k uuid =>
      obtain rfl := List.mem_singleton.mp hmem
      exact .callWritten k uuid
  | cast k uuid =>
      obtain rfl := List.mem_singleton.mp hmem
      exact .castWritten k uuid
  | timedOut index timer htimer hdue =>
      simp only [World.outcome, Connected.joinTimedOut_effects, Option.mem_toList,
        Option.map_eq_some_iff] at hmem
      obtain ⟨join, hjoin, rfl⟩ := hmem
      exact .timedOut index timer join htimer hdue hjoin
  | lost d hr hstate hq =>
      simp only [World.outcome, List.mem_append, mem_sendDisconnected] at hmem
      rcases hmem with (hmem | rfl | ⟨key, join, hjoin, rfl⟩ | ⟨key, r, tx, hcall, rfl⟩) | hmem
      · exact (hq effect (by simp [hmem])).cause
      · exact .lost d
      · exact .joinLost key join hjoin
      · exact .callLost key r tx hcall
      · exact (hq effect (by simp [hmem])).cause
  | exit error => cases hmem
  | panic hr => cases hmem

theorem UnconnectedIteration.cause (h : UnconnectedIteration time state input iteration)
    (hmem : effect ∈ (World.outcome iteration).2) : EffectCause time state input effect := by
  cases h with
  | quiet hr hq => exact .quiet (hq effect hmem)
  | spawned uuid =>
      obtain rfl := List.mem_singleton.mp hmem
      exact .spawned
  | connected hs hq =>
      rcases List.mem_append.mp hmem with hmem | hmem
      · obtain rfl := List.mem_singleton.mp hmem
        exact .connected hs
      · exact .quiet (hq effect hmem)
  | connectFailed hs hq => exact .quiet (hq effect hmem)
  | reconnected hs hdue =>
      obtain rfl := List.mem_singleton.mp hmem
      subst hs
      exact .reconnected hdue
  | reconnectFailed hs hdue hq => exact .quiet (hq effect hmem)
  | disconnect =>
      obtain rfl := List.mem_singleton.mp hmem
      exact .disconnected
  | shutdown => cases hmem
  | exit => cases hmem
  | panic => cases hmem

theorem Entry.cause {e : Entry} (h : e.Possible) (hmem : effect ∈ e.effects) :
    EffectCause e.time e.before e.input effect := by
  cases h with
  | connected hbefore hiter he => rw [hbefore]; rw [he] at hmem; exact hiter.cause hmem
  | unconnected hs hiter he => rw [he] at hmem; exact hiter.cause hmem

end PhoenixChannels.Socket
