import PhoenixChannels.Socket.Lemmas.Connection
import PhoenixChannels.Socket.Lemmas.Runs

/-!
# The maps of a connection as flat maps

The pending joins, the joined channels and the pending calls are kept in maps of maps. The handlers
that change them do to each of them what they would do to a flat map, and leave no inner map empty.
-/

namespace PhoenixChannels.Socket

open Machine

/-! ## Flat maps -/

/-- The three maps by the keys of their entries. -/
structure FlatMaps where
  joins : JoinKey → Option Join
  members : JoinKey → Option JoinedChannelSenders
  calls : JoinKey × Reference → Option TxId

def Connected.flat (c : Connected) : FlatMaps where
  joins := c.pendingJoin
  members := c.joinedChannelTxs
  calls := fun (key, reference) => c.pendingCall key reference

/-- A call of one of the functions that change the maps. -/
inductive MapOp
  | startJoin (join : Join) (uuid : Uuid) (sent : Except WebSocketError Unit)
  | handleReply (reply : Reply) (fresh : TxId)
  | joinTimedOut (key : JoinKey)
  | leave (leave : Leave) (uuid : Uuid) (sent : Except WebSocketError Unit)
  | call (call : Call) (uuid : Uuid) (sent : Except WebSocketError Unit)

/-- The senders that an effect takes out of a map. -/
def Effect.found? : Effect → Option TxId
  | joinedTx tx _ | replyTx tx _ | memberLeftTx tx => some tx
  | _ => none

/-- What a function does to the flat maps, with the senders that it finds there. -/
def FlatMaps.apply (maps : FlatMaps) : MapOp → FlatMaps × List TxId
  | .startJoin join _ _ =>
      ({ maps with joins := Function.update maps.joins join.key (some join) }, [])
  | .handleReply reply fresh =>
      match maps.joins reply.key with
      | some join =>
          ({ maps with
              joins := Function.update maps.joins reply.key none
              members :=
                if reply.status = .ok then
                  Function.update maps.members reply.key (some ⟨fresh, fresh⟩)
                else maps.members }, [join.joinedTx])
      | none =>
          ({ maps with calls := Function.update maps.calls (reply.key, reply.reference) none },
            (maps.calls (reply.key, reply.reference)).toList)
  | .joinTimedOut key =>
      ({ maps with joins := Function.update maps.joins key none },
        ((maps.joins key).map Join.joinedTx).toList)
  | .leave leave _ _ =>
      ({ maps with members := Function.update maps.members leave.key none },
        ((maps.members leave.key).map JoinedChannelSenders.left).toList)
  | .call call uuid _ =>
      ({ maps with
          calls := Function.update maps.calls (call.key, Reference.new uuid) (some call.replyTx) },
        [])

def FlatMaps.applyAll (maps : FlatMaps) : List MapOp → FlatMaps × List TxId
  | [] => (maps, [])
  | op :: ops =>
      let (maps, found) := maps.apply op
      let (maps, founds) := maps.applyAll ops
      (maps, found ++ founds)

/-! ## The functions on a connection -/

/-- The connection that a handler leaves; `none` when it is lost. -/
def keptConnection : Panics (State × List Effect) → Option (Connected × List Effect)
  | some (.connected c, effects) => some (c, effects)
  | _ => none

def Connected.apply (now : Instant) (c : Connected) : MapOp → Option (Connected × List Effect)
  | .startJoin join uuid sent => keptConnection (startJoin now c join uuid sent)
  | .handleReply reply fresh => some (c.handleReply reply fresh)
  | .joinTimedOut key => some (c.joinTimedOut key)
  | .leave l uuid sent => keptConnection (leave now c l uuid sent)
  | .call k uuid sent => keptConnection (call now c k uuid sent)

/-- The functions one after another, each at its own instant. -/
def Connected.applyAll (c : Connected) : List (Instant × MapOp) → Option (Connected × List Effect)
  | [] => some (c, [])
  | (now, op) :: ops => do
      let (c, effects) ← c.apply now op
      let (c, rest) ← c.applyAll ops
      return (c, effects ++ rest)

/-! ## The property -/

/-- What calls of the functions make of the maps of `c` is what they make of flat maps. -/
structure RefinesFlat (c : Connected) (ops : List MapOp) (c' : Connected) (effects : List Effect) :
    Prop where
  maps : c'.flat = (c.flat.applyAll ops).1
  found : effects.filterMap Effect.found? = (c.flat.applyAll ops).2
  /-- No topic and no join reference has an empty inner map. -/
  pruned : c'.joinByReferenceByTopic.Pruned ∧ c'.joinedChannelTxsByJoinReferenceByTopic.Pruned ∧
    c'.replyTxByReferenceByJoinReferenceByTopic.Pruned
  /-- Removing what is not there changes nothing. -/
  absent (key : JoinKey) :
    (c'.pendingJoin key = none → c'.removeJoin key = (none, c')) ∧
      (c'.joinedChannelTxs key = none → c'.removeJoinedChannelTxs key = (none, c')) ∧
      ∀ reference, c'.pendingCall key reference = none →
        c'.removeReplyTx key reference = (none, c')

/-! ## The invariant -/

/-- No inner map is empty, and each pending join is under its own key. -/
structure Connected.WellMapped (c : Connected) : Prop where
  joins : c.joinByReferenceByTopic.Pruned
  members : c.joinedChannelTxsByJoinReferenceByTopic.Pruned
  calls : c.replyTxByReferenceByJoinReferenceByTopic.Pruned
  keyed {key : JoinKey} {join : Join} : c.pendingJoin key = some join → join.key = key

namespace Connected.WellMapped

variable {c : Connected} {key : JoinKey} {reply : Reply} {join : Join} {fresh : TxId}

theorem new {now : Instant} {timeout : Duration} : (Connected.new now timeout).WellMapped where
  joins := NestedMap.pruned_empty
  members := NestedMap.pruned_empty
  calls := NestedMap₃.pruned_empty
  keyed := by
    intro key join h
    cases h

theorem removeJoin (h : c.WellMapped) (key : JoinKey) : (c.removeJoin key).2.WellMapped where
  joins := h.joins.remove key.topic key.joinReference
  members := h.members
  calls := h.calls
  keyed := by
    intro key' join hjoin
    rw [removeJoin_pendingJoin] at hjoin
    split at hjoin
    · cases hjoin
    · exact h.keyed hjoin

theorem removeJoinedChannelTxs (h : c.WellMapped) (key : JoinKey) :
    (c.removeJoinedChannelTxs key).2.WellMapped :=
  ⟨h.joins, h.members.remove key.topic key.joinReference, h.calls, h.keyed⟩

theorem removeReplyTx (h : c.WellMapped) (key : JoinKey) (reference : Reference) :
    (c.removeReplyTx key reference).2.WellMapped :=
  ⟨h.joins, h.members, h.calls.remove key.topic key.joinReference reference, h.keyed⟩

theorem finishJoin (h : c.WellMapped) (reply : Reply) (join : Join) (fresh : TxId) :
    (c.finishJoin reply join fresh).1.WellMapped := by
  unfold Connected.finishJoin subscribeBroadcast
  cases reply.status with
  | error => exact h
  | ok =>
      cases c.broadcastByTopic.lookup join.topic with
      | some sender => exact ⟨h.joins, h.members.put _ _ _, h.calls, h.keyed⟩
      | none => exact ⟨h.joins, h.members.put _ _ _, h.calls, h.keyed⟩

theorem handleReply (h : c.WellMapped) (reply : Reply) (fresh : TxId) :
    (c.handleReply reply fresh).1.WellMapped := by
  rcases c.handleReply_cases reply fresh with ⟨join, _, heq⟩ | ⟨_, _, _, heq⟩ | ⟨_, _, heq⟩
  · rw [heq]
    exact (h.removeJoin reply.key).finishJoin reply join fresh
  · rw [heq]
    exact (h.removeJoin reply.key).removeReplyTx reply.key reply.reference
  · rw [heq]
    exact (h.removeJoin reply.key).removeReplyTx reply.key reply.reference

theorem joinTimedOut (h : c.WellMapped) (key : JoinKey) : (c.joinTimedOut key).1.WellMapped := by
  rw [joinTimedOut_fst]
  exact h.removeJoin key

theorem putJoin (h : c.WellMapped) (join : Join) (timeouts : List JoinTimeout) :
    Connected.WellMapped { c with
      joinByReferenceByTopic := c.joinByReferenceByTopic.put join.topic join.joinReference join
      joinTimeouts := timeouts } where
  joins := h.joins.put join.topic join.joinReference join
  members := h.members
  calls := h.calls
  keyed := by
    intro key join' hjoin
    simp only [pendingJoin, NestedMap.find_put] at hjoin
    split at hjoin
    · rename_i hkey
      cases hjoin
      exact JoinKey.eq_iff.mpr ⟨hkey.1.symm, hkey.2.symm⟩
    · exact h.keyed hjoin

theorem putCall (h : c.WellMapped) (key : JoinKey) (reference : Reference) (replyTx : TxId) :
    Connected.WellMapped { c with
      replyTxByReferenceByJoinReferenceByTopic :=
        c.replyTxByReferenceByJoinReferenceByTopic.put key.topic key.joinReference reference
          replyTx } :=
  ⟨h.joins, h.members, h.calls.put key.topic key.joinReference reference replyTx, h.keyed⟩

end Connected.WellMapped

theorem wellMapped_invariant {ok : World → Label → Prop} :
    ConnectionInvariant ok Connected.WellMapped where
  fresh _ _ := .new
  kept := by
    intro w c c' input effects _ h _ hiter
    generalize hnext : Iteration.next (.connected c') effects = iteration at hiter
    cases hiter with
    | quiet | spawned | cast =>
        cases hnext
        exact ⟨h.joins, h.members, h.calls, h.keyed⟩
    | reply r =>
        cases hnext
        exact h.handleReply r w.fresh
    | broadcast b =>
        cases hnext
        unfold Connected.handleBroadcast
        cases c.broadcastByTopic.lookup b.topic with
        | none => exact h
        | some sender => exact ⟨h.joins, h.members, h.calls, h.keyed⟩
    | join j uuid =>
        cases hnext
        exact h.putJoin j _
    | leave l uuid =>
        cases hnext
        exact h.removeJoinedChannelTxs l.key
    | call k uuid =>
        cases hnext
        exact h.putCall k.key _ k.replyTx
    | timedOut index timeout =>
        cases hnext
        have herased : Connected.WellMapped
            { c with joinTimeouts := c.joinTimeouts.eraseIdx index } :=
          ⟨h.joins, h.members, h.calls, h.keyed⟩
        exact herased.joinTimedOut timeout.key
    | lost d _ hlost =>
        cases hnext
        exact absurd hlost.symm lostState_ne_connected
    | push | exit | panic => cases hnext

/-! ## One call -/

section

variable {now : Instant} {c c' : Connected} {effects : List Effect} {op : MapOp} {key : JoinKey}
variable {join : Join} {timeouts : List JoinTimeout} {reference : Reference}

theorem keptConnection_eq_some {result : Panics (State × List Effect)}
    (h : keptConnection result = some (c', effects)) : result = some (.connected c', effects) := by
  unfold keptConnection at h
  split at h
  · cases h
    rfl
  · cases h

theorem flat_putJoin :
    Connected.flat { c with
      joinByReferenceByTopic := c.joinByReferenceByTopic.put join.topic join.joinReference join
      joinTimeouts := timeouts } =
        { c.flat with joins := Function.update c.flat.joins join.key (some join) } := by
  simp only [Connected.flat, FlatMaps.mk.injEq]
  refine ⟨?_, rfl, rfl⟩
  funext key
  simp [Connected.pendingJoin, NestedMap.find_put, Function.update_apply, JoinKey.eq_iff, Join.key]

theorem flat_putCall (c : Connected) (key : JoinKey) (reference : Reference) (replyTx : TxId) :
    Connected.flat { c with
      replyTxByReferenceByJoinReferenceByTopic :=
        c.replyTxByReferenceByJoinReferenceByTopic.put key.topic key.joinReference reference
          replyTx } =
        { c.flat with calls := Function.update c.flat.calls (key, reference) (some replyTx) } := by
  simp only [Connected.flat, FlatMaps.mk.injEq]
  refine ⟨rfl, rfl, ?_⟩
  funext ⟨key', reference'⟩
  simp [Connected.pendingCall, NestedMap₃.find_put, Function.update_apply, JoinKey.eq_iff, and_assoc]

theorem flat_removeJoin : (c.removeJoin key).2.flat =
    { c.flat with joins := Function.update c.flat.joins key none } := by
  simp only [Connected.flat, FlatMaps.mk.injEq]
  refine ⟨?_, rfl, rfl⟩
  funext key'
  simp [Connected.removeJoin_pendingJoin, Function.update_apply]

theorem flat_removeJoinedChannelTxs : (c.removeJoinedChannelTxs key).2.flat =
    { c.flat with members := Function.update c.flat.members key none } := by
  simp only [Connected.flat, FlatMaps.mk.injEq]
  refine ⟨rfl, ?_, rfl⟩
  funext key'
  simp [Connected.removeJoinedChannelTxs_joinedChannelTxs, Function.update_apply]

theorem flat_removeReplyTx : (c.removeReplyTx key reference).2.flat =
    { c.flat with calls := Function.update c.flat.calls (key, reference) none } := by
  simp only [Connected.flat, FlatMaps.mk.injEq]
  refine ⟨rfl, rfl, ?_⟩
  funext ⟨key', reference'⟩
  simp [Connected.removeReplyTx_pendingCall, Function.update_apply]

theorem flat_finishJoin {reply : Reply} {fresh : TxId} (hkey : join.key = reply.key) :
    (c.finishJoin reply join fresh).1.flat =
      { c.flat with
        members :=
          if reply.status = .ok then
            Function.update c.flat.members reply.key (some ⟨fresh, fresh⟩)
          else c.flat.members } := by
  simp only [Connected.flat, FlatMaps.mk.injEq]
  refine ⟨by funext key; simp, ?_, by funext ⟨key, reference⟩; simp⟩
  have htopic : (⟨join.topic, reply.joinReference⟩ : JoinKey) = reply.key := by
    rw [show join.topic = reply.topic from congrArg JoinKey.topic hkey]
    rfl
  funext key
  rw [Connected.finishJoin_joinedChannelTxs, htopic]
  by_cases hstatus : reply.status = .ok <;> simp [hstatus, Function.update_apply]

theorem startJoin_kept {uuid : Uuid} {sent : Except WebSocketError Unit}
    (h : startJoin now c join uuid sent = some (.connected c', effects)) :
    c' = { c with
      joinByReferenceByTopic := c.joinByReferenceByTopic.put join.topic join.joinReference join
      joinTimeouts := c.joinTimeouts ++ [⟨join.deadline, join.key, join.joinedTx⟩] } ∧
      effects = [.write (joinMessage join uuid) (.join join.joinedTx)] := by
  simp only [startJoin, Option.bind_eq_bind, Option.bind_eq_some_iff] at h
  obtain ⟨encoded, _, data, _, h⟩ := h
  cases sent with
  | ok =>
      cases h
      exact ⟨rfl, rfl⟩
  | error => cases h

theorem leave_kept {l : Leave} {uuid : Uuid} {sent : Except WebSocketError Unit}
    (h : leave now c l uuid sent = some (.connected c', effects)) :
    c' = (c.removeJoinedChannelTxs l.key).2 ∧
      effects = [.write (leaveMessage l uuid) (.leave l.ticket)]
        ++ ((c.joinedChannelTxs l.key).map fun senders => Effect.memberLeftTx senders.left).toList
        ++ [.leftTx l.leftTx (.ok ())] := by
  simp only [leave, Option.bind_eq_bind, Option.bind_eq_some_iff] at h
  obtain ⟨encoded, _, data, _, h⟩ := h
  cases sent with
  | ok =>
      cases h
      exact ⟨rfl, by rw [← Connected.removeJoinedChannelTxs_fst]⟩
  | error => cases h

theorem call_kept {k : Call} {uuid : Uuid} {sent : Except WebSocketError Unit}
    (h : call now c k uuid sent = some (.connected c', effects)) :
    c' = { c with
      replyTxByReferenceByJoinReferenceByTopic :=
        c.replyTxByReferenceByJoinReferenceByTopic.put k.topic k.joinReference
          (Reference.new uuid) k.replyTx } ∧
      effects = [.write (callMessage k uuid) (.call k.replyTx)] := by
  simp only [call, Option.bind_eq_bind, Option.bind_eq_some_iff] at h
  obtain ⟨encoded, _, data, _, h⟩ := h
  cases sent with
  | ok =>
      cases h
      exact ⟨rfl, rfl⟩
  | error => cases h

theorem flat_handleReply (h : c.WellMapped) (reply : Reply) (fresh : TxId) :
    (c.handleReply reply fresh).1.flat = (c.flat.apply (.handleReply reply fresh)).1 ∧
      (c.handleReply reply fresh).2.filterMap Effect.found? =
        (c.flat.apply (.handleReply reply fresh)).2 := by
  have hflat : ∀ key, c.flat.joins key = c.pendingJoin key := fun _ => rfl
  rcases c.handleReply_cases reply fresh with
    ⟨join, hjoin, heq⟩ | ⟨hnone, replyTx, hcall, heq⟩ | ⟨hnone, hcall, heq⟩
  · obtain ⟨result, heffects, _⟩ :=
      (c.removeJoin reply.key).2.finishJoin_effects reply join fresh
    simp only [heq, FlatMaps.apply, hflat, hjoin]
    rw [flat_finishJoin (h.keyed hjoin), flat_removeJoin, heffects]
    exact ⟨rfl, rfl⟩
  · have hcalls : c.flat.calls (reply.key, reply.reference) = some replyTx := hcall
    have hjoins : Function.update c.flat.joins reply.key none = c.flat.joins := by
      rw [← hnone]
      exact Function.update_eq_self _ _
    simp only [heq, FlatMaps.apply, hflat, hnone, hcalls]
    rw [flat_removeReplyTx, flat_removeJoin, hjoins]
    exact ⟨rfl, rfl⟩
  · have hcalls : c.flat.calls (reply.key, reply.reference) = none := hcall
    have hjoins : Function.update c.flat.joins reply.key none = c.flat.joins := by
      rw [← hnone]
      exact Function.update_eq_self _ _
    simp only [heq, FlatMaps.apply, hflat, hnone, hcalls]
    rw [flat_removeReplyTx, flat_removeJoin, hjoins]
    exact ⟨rfl, rfl⟩

theorem Connected.WellMapped.apply (h : c.WellMapped) (hop : c.apply now op = some (c', effects)) :
    c'.WellMapped ∧ c'.flat = (c.flat.apply op).1 ∧
      effects.filterMap Effect.found? = (c.flat.apply op).2 := by
  cases op with
  | startJoin join uuid sent =>
      obtain ⟨rfl, rfl⟩ := startJoin_kept (keptConnection_eq_some hop)
      exact ⟨h.putJoin join _, flat_putJoin, rfl⟩
  | handleReply reply fresh =>
      obtain rfl : (c.handleReply reply fresh).1 = c' := congrArg Prod.fst (Option.some.inj hop)
      obtain rfl : (c.handleReply reply fresh).2 = effects :=
        congrArg Prod.snd (Option.some.inj hop)
      exact ⟨h.handleReply reply fresh, flat_handleReply h reply fresh⟩
  | joinTimedOut key =>
      obtain rfl : (c.joinTimedOut key).1 = c' := congrArg Prod.fst (Option.some.inj hop)
      obtain rfl : (c.joinTimedOut key).2 = effects := congrArg Prod.snd (Option.some.inj hop)
      refine ⟨h.joinTimedOut key, ?_, ?_⟩
      · rw [Connected.joinTimedOut_fst, flat_removeJoin]
        rfl
      · rw [Connected.joinTimedOut_effects]
        have hjoin : c.flat.joins key = c.pendingJoin key := rfl
        simp only [FlatMaps.apply, hjoin]
        cases c.pendingJoin key <;> rfl
  | leave l uuid sent =>
      obtain ⟨rfl, rfl⟩ := leave_kept (keptConnection_eq_some hop)
      refine ⟨h.removeJoinedChannelTxs l.key, flat_removeJoinedChannelTxs, ?_⟩
      have hmember : c.flat.members l.key = c.joinedChannelTxs l.key := rfl
      simp only [FlatMaps.apply, hmember]
      cases c.joinedChannelTxs l.key <;> rfl
  | call k uuid sent =>
      obtain ⟨rfl, rfl⟩ := call_kept (keptConnection_eq_some hop)
      exact ⟨h.putCall k.key _ k.replyTx, flat_putCall c k.key _ k.replyTx, rfl⟩

theorem Connected.WellMapped.applyAll {ops : List (Instant × MapOp)} (h : c.WellMapped)
    (hops : c.applyAll ops = some (c', effects)) :
    c'.WellMapped ∧ c'.flat = (c.flat.applyAll (ops.map Prod.snd)).1 ∧
      effects.filterMap Effect.found? = (c.flat.applyAll (ops.map Prod.snd)).2 := by
  induction ops generalizing c effects with
  | nil =>
      cases hops
      exact ⟨h, rfl, rfl⟩
  | cons op ops ih =>
      obtain ⟨now, op⟩ := op
      simp only [Connected.applyAll, Option.bind_eq_bind, Option.bind_eq_some_iff] at hops
      obtain ⟨⟨c₁, first⟩, hop, ⟨c₂, rest⟩, hrest, heq⟩ := hops
      cases heq
      obtain ⟨h₁, hflat, hfound⟩ := h.apply hop
      obtain ⟨h₂, hflat', hfound'⟩ := ih h₁ hrest
      rw [hflat] at hflat' hfound'
      refine ⟨h₂, hflat', ?_⟩
      rw [List.filterMap_append, hfound, hfound']
      rfl

theorem remove_absent (c : Connected) (key : JoinKey) :
    (c.pendingJoin key = none → c.removeJoin key = (none, c)) ∧
      (c.joinedChannelTxs key = none → c.removeJoinedChannelTxs key = (none, c)) ∧
      ∀ reference, c.pendingCall key reference = none →
        c.removeReplyTx key reference = (none, c) := by
  refine ⟨fun h => ?_, fun h => ?_, fun reference h => ?_⟩
  · simp only [Connected.removeJoin, NestedMap.remove_of_find_none h]
  · simp only [Connected.removeJoinedChannelTxs, NestedMap.remove_of_find_none h]
  · simp only [Connected.removeReplyTx, NestedMap₃.remove_of_find_none h]

end

end PhoenixChannels.Socket
