import PhoenixChannels.Socket.Listener

/-!
# The maps of a connection

What each operation on a connection does to the pending joins, the joined channels, the pending
calls and the timers.
-/

namespace PhoenixChannels.Socket

theorem JoinKey.eq_iff {k k' : JoinKey} :
    k = k' ↔ k.topic = k'.topic ∧ k.joinReference = k'.joinReference := by
  cases k; cases k'; simp

namespace Connected

variable {c : Connected} {key key' : JoinKey} {reference reference' : Reference} {reply : Reply}
variable {join : Join} {fresh : TxId}

/-! ## A fresh connection -/

@[simp] theorem new_pendingJoin {now : Instant} {timeout : Duration} :
    (Connected.new now timeout).pendingJoin key = none := rfl

@[simp] theorem new_joinedChannelTxs {now : Instant} {timeout : Duration} :
    (Connected.new now timeout).joinedChannelTxs key = none := rfl

@[simp] theorem new_pendingCall {now : Instant} {timeout : Duration} :
    (Connected.new now timeout).pendingCall key reference = none := rfl

@[simp] theorem new_joinTimeouts {now : Instant} {timeout : Duration} :
    (Connected.new now timeout).joinTimeouts = [] := rfl

/-! ## Removing -/

@[simp] theorem removeJoin_fst : (c.removeJoin key).1 = c.pendingJoin key :=
  NestedMap.remove_fst _ _ _

theorem removeJoin_pendingJoin : (c.removeJoin key).2.pendingJoin key' =
    if key' = key then none else c.pendingJoin key' := by
  simp [removeJoin, pendingJoin, NestedMap.find_remove, JoinKey.eq_iff]

@[simp] theorem removeJoin_joinedChannelTxs :
    (c.removeJoin key).2.joinedChannelTxs key' = c.joinedChannelTxs key' := rfl

@[simp] theorem removeJoin_pendingCall :
    (c.removeJoin key).2.pendingCall key' reference = c.pendingCall key' reference := rfl

@[simp] theorem removeJoin_joinTimeouts :
    (c.removeJoin key).2.joinTimeouts = c.joinTimeouts := rfl

@[simp] theorem removeJoinedChannelTxs_fst :
    (c.removeJoinedChannelTxs key).1 = c.joinedChannelTxs key := NestedMap.remove_fst _ _ _

theorem removeJoinedChannelTxs_joinedChannelTxs :
    (c.removeJoinedChannelTxs key).2.joinedChannelTxs key' =
      if key' = key then none else c.joinedChannelTxs key' := by
  simp [removeJoinedChannelTxs, joinedChannelTxs, NestedMap.find_remove, JoinKey.eq_iff]

@[simp] theorem removeJoinedChannelTxs_pendingJoin :
    (c.removeJoinedChannelTxs key).2.pendingJoin key' = c.pendingJoin key' := rfl

@[simp] theorem removeJoinedChannelTxs_pendingCall :
    (c.removeJoinedChannelTxs key).2.pendingCall key' reference =
      c.pendingCall key' reference := rfl

@[simp] theorem removeJoinedChannelTxs_joinTimeouts :
    (c.removeJoinedChannelTxs key).2.joinTimeouts = c.joinTimeouts := rfl

@[simp] theorem removeReplyTx_fst :
    (c.removeReplyTx key reference).1 = c.pendingCall key reference :=
  NestedMap₃.remove_fst _ _ _ _

theorem removeReplyTx_pendingCall :
    (c.removeReplyTx key reference).2.pendingCall key' reference' =
      if key' = key ∧ reference' = reference then none else c.pendingCall key' reference' := by
  simp [removeReplyTx, pendingCall, NestedMap₃.find_remove, JoinKey.eq_iff, and_assoc]

@[simp] theorem removeReplyTx_pendingJoin :
    (c.removeReplyTx key reference).2.pendingJoin key' = c.pendingJoin key' := rfl

@[simp] theorem removeReplyTx_joinedChannelTxs :
    (c.removeReplyTx key reference).2.joinedChannelTxs key' = c.joinedChannelTxs key' := rfl

@[simp] theorem removeReplyTx_joinTimeouts :
    (c.removeReplyTx key reference).2.joinTimeouts = c.joinTimeouts := rfl

/-! ## Finishing a join -/

theorem finishJoin_fst (c : Connected) (reply : Reply) (join : Join) (fresh : TxId) :
    ∃ members broadcastByTopic, (c.finishJoin reply join fresh).1 =
      { c with
        joinedChannelTxsByJoinReferenceByTopic := members
        broadcastByTopic := broadcastByTopic } := by
  unfold finishJoin subscribeBroadcast
  cases reply.status with
  | error => exact ⟨_, _, rfl⟩
  | ok => cases c.broadcastByTopic.lookup join.topic <;> exact ⟨_, _, rfl⟩

@[simp] theorem finishJoin_pendingJoin :
    (c.finishJoin reply join fresh).1.pendingJoin key = c.pendingJoin key := by
  obtain ⟨_, _, h⟩ := c.finishJoin_fst reply join fresh
  rw [h]
  rfl

@[simp] theorem finishJoin_pendingCall :
    (c.finishJoin reply join fresh).1.pendingCall key reference =
      c.pendingCall key reference := by
  obtain ⟨_, _, h⟩ := c.finishJoin_fst reply join fresh
  rw [h]
  rfl

theorem finishJoin_joinedChannelTxs :
    (c.finishJoin reply join fresh).1.joinedChannelTxs key =
      if reply.status = .ok ∧ key = ⟨join.topic, reply.joinReference⟩ then some ⟨fresh, fresh⟩
      else c.joinedChannelTxs key := by
  unfold finishJoin subscribeBroadcast
  cases reply.status with
  | error => simp
  | ok =>
      cases c.broadcastByTopic.lookup join.topic <;>
        simp [joinedChannelTxs, NestedMap.find_put, JoinKey.eq_iff]

theorem finishJoin_effects (c : Connected) (reply : Reply) (join : Join) (fresh : TxId) :
    ∃ result,
    (c.finishJoin reply join fresh).2 = [.joinedTx join.joinedTx result] ∧
      ((∃ joined, reply.status = .ok ∧ result = .ok joined) ∨
        (reply.status = .error ∧ result = .error (.rejected reply.payload))) := by
  unfold finishJoin
  cases reply.status with
  | error => exact ⟨_, rfl, .inr ⟨rfl, rfl⟩⟩
  | ok => exact ⟨_, rfl, .inl ⟨_, rfl, rfl⟩⟩

/-! ## Replies -/

/-- A reply either finishes the pending join of its channel, or is given to the call that waits for
its reference, or is ignored. -/
theorem handleReply_cases (c : Connected) (reply : Reply) (fresh : TxId) :
    (∃ join, c.pendingJoin reply.key = some join ∧
      c.handleReply reply fresh = (c.removeJoin reply.key).2.finishJoin reply join fresh) ∨
    (c.pendingJoin reply.key = none ∧ ∃ replyTx,
      c.pendingCall reply.key reply.reference = some replyTx ∧
      c.handleReply reply fresh =
        (((c.removeJoin reply.key).2.removeReplyTx reply.key reply.reference).2,
          [.replyTx replyTx (match reply.status with
            | .ok => .ok reply.payload
            | .error => .error (.reply reply.payload))])) ∨
    (c.pendingJoin reply.key = none ∧ c.pendingCall reply.key reply.reference = none ∧
      c.handleReply reply fresh =
        (((c.removeJoin reply.key).2.removeReplyTx reply.key reply.reference).2, [])) := by
  have hjoin : (c.removeJoin reply.key).1 = c.pendingJoin reply.key := removeJoin_fst
  have hcall : ((c.removeJoin reply.key).2.removeReplyTx reply.key reply.reference).1 =
      c.pendingCall reply.key reply.reference := removeReplyTx_fst
  unfold handleReply
  rcases hj : c.removeJoin reply.key with ⟨_ | join, c₁⟩
  · rw [hj] at hjoin hcall
    simp only [] at hjoin hcall ⊢
    rcases hc : c₁.removeReplyTx reply.key reply.reference with ⟨_ | replyTx, c₂⟩
    · rw [hc] at hcall
      exact .inr (.inr ⟨hjoin.symm, hcall.symm, rfl⟩)
    · rw [hc] at hcall
      exact .inr (.inl ⟨hjoin.symm, replyTx, hcall.symm, rfl⟩)
  · rw [hj] at hjoin
    exact .inl ⟨join, hjoin.symm, rfl⟩

/-- A reply changes the maps alone. -/
theorem handleReply_fst (c : Connected) (reply : Reply) (fresh : TxId) :
    ∃ joins members calls broadcastByTopic, (c.handleReply reply fresh).1 =
      { c with
        joinByReferenceByTopic := joins
        joinedChannelTxsByJoinReferenceByTopic := members
        replyTxByReferenceByJoinReferenceByTopic := calls
        broadcastByTopic := broadcastByTopic } := by
  rcases c.handleReply_cases reply fresh with ⟨join, _, h⟩ | ⟨_, replyTx, _, h⟩ | ⟨_, _, h⟩
  · obtain ⟨_, _, hfinish⟩ := (c.removeJoin reply.key).2.finishJoin_fst reply join fresh
    rw [h, hfinish]
    exact ⟨_, _, _, _, rfl⟩
  · rw [h]
    exact ⟨_, _, _, _, rfl⟩
  · rw [h]
    exact ⟨_, _, _, _, rfl⟩

theorem handleReply_pendingJoin : (c.handleReply reply fresh).1.pendingJoin key =
    if key = reply.key then none else c.pendingJoin key := by
  rcases c.handleReply_cases reply fresh with ⟨join, _, h⟩ | ⟨_, replyTx, _, h⟩ | ⟨_, _, h⟩ <;>
    simp [h, removeJoin_pendingJoin]

@[simp] theorem handleReply_joinTimeouts :
    (c.handleReply reply fresh).1.joinTimeouts = c.joinTimeouts := by
  obtain ⟨_, _, _, _, h⟩ := c.handleReply_fst reply fresh
  rw [h]

/-! ## Broadcasts and timeouts -/

theorem handleBroadcast_cases (c : Connected) (broadcast : Broadcast) :
    ∃ broadcastByTopic, (c.handleBroadcast broadcast).1 =
      { c with broadcastByTopic := broadcastByTopic } := by
  unfold handleBroadcast
  cases c.broadcastByTopic.lookup broadcast.topic with
  | none => exact ⟨_, rfl⟩
  | some sender => exact ⟨_, rfl⟩

theorem handleBroadcast_effects (c : Connected) (broadcast : Broadcast) :
    (c.handleBroadcast broadcast).2 = [] ∨
      ∃ tx, (c.handleBroadcast broadcast).2 = [.broadcastTx tx broadcast] := by
  unfold handleBroadcast
  cases c.broadcastByTopic.lookup broadcast.topic with
  | none => exact .inl rfl
  | some sender => exact .inr ⟨_, rfl⟩

theorem joinTimedOut_fst : (c.joinTimedOut key).1 = (c.removeJoin key).2 := by
  unfold joinTimedOut
  rcases c.removeJoin key with ⟨_ | join, c₁⟩ <;> rfl

theorem joinTimedOut_effects : (c.joinTimedOut key).2 =
    ((c.pendingJoin key).map
      (fun join => Effect.joinedTx join.joinedTx (.error .timeout))).toList := by
  have hfst : (c.removeJoin key).1 = c.pendingJoin key := removeJoin_fst
  unfold joinTimedOut
  rcases hr : c.removeJoin key with ⟨_ | join, c₁⟩ <;> rw [hr] at hfst <;> simp [← hfst]

/-! ## Writing a frame -/

theorem joined_pendingJoin : Connected.pendingJoin { c with
    joinByReferenceByTopic := c.joinByReferenceByTopic.put join.topic join.joinReference join
    joinTimeouts := c.joinTimeouts ++ [⟨join.deadline, join.key, join.joinedTx⟩] } key =
      if key = join.key then some join else c.pendingJoin key := by
  simp [pendingJoin, NestedMap.find_put, JoinKey.eq_iff, Join.key]

theorem called_pendingCall {call : Call} : Connected.pendingCall { c with
    replyTxByReferenceByJoinReferenceByTopic :=
      c.replyTxByReferenceByJoinReferenceByTopic.put call.topic call.joinReference
        reference call.replyTx } key reference' =
      if key = call.key ∧ reference' = reference then some call.replyTx
      else c.pendingCall key reference' := by
  simp [pendingCall, NestedMap₃.find_put, JoinKey.eq_iff, Call.key, and_assoc]

end Connected

/-! ## Losing a connection -/

theorem mem_pendingTxs {c : Connected} {tx : TxId} :
    tx ∈ c.joinByReferenceByTopic.values.map Join.joinedTx ↔
      ∃ key join, c.pendingJoin key = some join ∧ join.joinedTx = tx := by
  simp only [List.mem_map, NestedMap.mem_values]
  constructor
  · rintro ⟨join, ⟨topic, ref, hfind⟩, htx⟩
    exact ⟨⟨topic, ref⟩, join, hfind, htx⟩
  · rintro ⟨key, join, hfind, htx⟩
    exact ⟨join, ⟨key.topic, key.joinReference, hfind⟩, htx⟩

theorem mem_sendDisconnected {c : Connected} {d : Disconnected} {e : Effect} :
    e ∈ (sendDisconnected c d).2 ↔
      e = .connectivity (.disconnected d) ∨
      (∃ key join, c.pendingJoin key = some join ∧
        e = .joinedTx join.joinedTx (.error .disconnected)) ∨
      ∃ key reference replyTx, c.pendingCall key reference = some replyTx ∧
        e = .replyTx replyTx (.error .socketDisconnected) := by
  simp only [sendDisconnected, List.cons_append, List.nil_append, List.mem_cons, List.mem_append,
    List.mem_map, NestedMap.mem_values, NestedMap₃.mem_values, Connected.pendingJoin,
    Connected.pendingCall]
  constructor
  · rintro (rfl | ⟨join, ⟨t, r, hf⟩, rfl⟩ | ⟨replyTx, ⟨t, j, r, hf⟩, rfl⟩)
    · exact .inl rfl
    · exact .inr (.inl ⟨⟨t, r⟩, join, hf, rfl⟩)
    · exact .inr (.inr ⟨⟨t, j⟩, r, replyTx, hf, rfl⟩)
  · rintro (rfl | ⟨key, join, hf, rfl⟩ | ⟨key, r, replyTx, hf, rfl⟩)
    · exact .inl rfl
    · exact .inr (.inl ⟨join, ⟨_, _, hf⟩, rfl⟩)
    · exact .inr (.inr ⟨replyTx, ⟨_, _, _, hf⟩, rfl⟩)

end PhoenixChannels.Socket
