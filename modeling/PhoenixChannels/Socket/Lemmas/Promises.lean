import PhoenixChannels.Socket.Lemmas.Exchanges
import PhoenixChannels.Socket.Lemmas.Losses

/-!
# The promises of the socket listener

The oneshot senders that came with commands, against the answers and the calls that wait for a reply.
-/

namespace PhoenixChannels.Socket

open Machine

/-- A oneshot sender, by what it was promised. -/
inductive Promise
  | connected (tx : TxId)
  | disconnected (tx : TxId)
  | left (tx : TxId)
  | reply (tx : TxId)
  | spawned (tx : TxId)
deriving DecidableEq, Repr

/-- The sender that comes with a command. A join keeps its sender to itself, with its timer. -/
def Input.promise? : Input → Option Promise
  | channelSpawn spawn _ _ => some (.spawned spawn.sender)
  | stateCommand (.connect connect) _ => some (.connected connect.connectedTx)
  | stateCommand (.disconnect disconnectedTx) _ => some (.disconnected disconnectedTx)
  | channelStateCommand (.leave leave) _ _ => some (.left leave.leftTx)
  | channelSendCommand (.call call) _ _ => some (.reply call.replyTx)
  | _ => none

/-- The sender that an effect sends into. -/
def Effect.kept? : Effect → Option Promise
  | connectedTx tx _ => some (.connected tx)
  | disconnectedTx tx => some (.disconnected tx)
  | leftTx tx _ => some (.left tx)
  | replyTx tx _ => some (.reply tx)
  | spawned spawn _ _ _ => some (.spawned spawn.sender)
  | _ => none

def Connected.replyTxs (connected : Connected) : List TxId :=
  connected.replyTxByReferenceByJoinReferenceByTopic.values

/-- The senders that the listener holds. -/
def State.pending : State → List Promise
  | connected c => c.replyTxs.map .reply
  | _ => []

/-- The senders that were taken with commands so far. -/
def World.promised (w : World) : List Promise := w.trace.filterMap (·.input.promise?)

/-- The senders that were sent into so far. -/
def World.kept (w : World) : List Promise := w.effects.filterMap Effect.kept?

def World.pending (w : World) : List Promise := (w.task.state.map State.pending).getD []

/-- An iteration that found the senders `held` and was given another one: each of them is sent into
or held on to. Where the listener ends with an error it drops what it holds. -/
inductive Balanced (held : List Promise) (given : Option Promise) : Iteration → Prop
  | next {state effects} :
      (held ++ given.toList).Perm (effects.filterMap Effect.kept? ++ state.pending) →
      Balanced held given (.next state effects)
  | push {c pushTx push} : (held ++ given.toList).Perm (State.connected c).pending →
      Balanced held given (.push c pushTx push)
  | stop : held = [] → given = none → Balanced held given (.exit (.ok ()))
  | exit {error} : Balanced held given (.exit (.error error))
  | panic : Balanced held given .panic

variable {strategy : Option (Nat → Duration)} {now : Instant} {fresh : TxId} {c c' : Connected}
variable {state : State} {input : Input} {iteration : Iteration} {effects : List Effect}
variable {given : Option Promise} {w w' : World} {label : Label} {ls : List Label}

/-! ## The calls of a connection -/

theorem replyTxs_eq : c.replyTxs = c.callEntries.map Prod.snd := by
  simp [Connected.replyTxs, Connected.callEntries, NestedMap₃.values_eq, Function.comp_def]

/-- One connection has one call more than the other. -/
theorem replyTxs_perm {key : JoinKey} {reference : Reference} {tx : TxId}
    (hnew : c.pendingCall key reference = none)
    (h : ∀ key' reference', c'.pendingCall key' reference' =
      if key' = key ∧ reference' = reference then some tx else c.pendingCall key' reference') :
    c'.replyTxs.Perm (tx :: c.replyTxs) := by
  have hperm : c'.callEntries.Perm (((key, reference), tx) :: c.callEntries) := by
    apply (listing_callEntries c).insert (listing_callEntries c')
    · exact hnew
    · simp [h]
    · rintro ⟨key', reference'⟩ hne
      have hne : ¬ (key' = key ∧ reference' = reference) := fun heq => hne (Prod.ext heq.1 heq.2)
      simp [h, hne]
  rw [replyTxs_eq, replyTxs_eq]
  simpa using hperm.map Prod.snd

theorem replyTxs_removeReplyTx {key : JoinKey} {reference : Reference}
    (hnone : c.pendingCall key reference = none) :
    (c.removeReplyTx key reference).2.replyTxs = c.replyTxs := by
  simp [Connected.replyTxs, Connected.removeReplyTx, NestedMap₃.remove_of_find_none hnone]

/-! ## Iterations -/

/-- Nothing is given, held or sent into but what was held before. -/
theorem Balanced.kept {held : List Promise} (hheld : state.pending = held)
    (h : ∀ e ∈ effects, e.kept? = none) : Balanced held none (.next state effects) := by
  apply Balanced.next
  simp [hheld, List.filterMap_eq_nil_iff.mpr h]

/-- The sender that was given is sent into at once. -/
theorem Balanced.answered {held : List Promise} {promise : Promise} (hheld : state.pending = held)
    (h : effects.filterMap Effect.kept? = [promise]) :
    Balanced held (some promise) (.next state effects) := by
  apply Balanced.next
  rw [hheld, h]
  exact List.perm_append_comm

theorem kept?_sendDisconnected {d : Disconnected} :
    (sendDisconnected c d).2.filterMap Effect.kept? = (State.connected c).pending := by
  simp [sendDisconnected_effects, State.pending, replyTxs_eq, List.filterMap_map, joinAnswer,
    callAnswer, Effect.kept?, Function.comp_def, List.filterMap_cons]

/-- The connection is lost, and its calls are answered. -/
theorem Balanced.lost {before after : List Effect} {d : Disconnected} (hstate : state.pending = [])
    (h : (before ++ after).filterMap Effect.kept? = given.toList) :
    Balanced (State.connected c).pending given
      (.next state (before ++ (sendDisconnected c d).2 ++ after)) := by
  apply Balanced.next
  simp only [List.filterMap_append, kept?_sendDisconnected, hstate, List.append_nil] at h ⊢
  rw [← h]
  simp only [List.append_assoc]
  exact (List.perm_append_comm_assoc _ _ _)

theorem Balanced.waits : Balanced (State.connected c).pending none
    (.next (waitToReconnectConnected now c).1 (waitToReconnectConnected now c).2) := by
  have h : Balanced (State.connected c).pending none (.next (waitToReconnectConnected now c).1
      ([] ++ (sendDisconnected c .reconnect).2 ++ [])) := .lost rfl rfl
  rw [List.append_nil] at h
  exact h

/-! ## The handlers -/

theorem balanced_handleReply {reply : Reply} : Balanced (State.connected c).pending none
    (.next (.connected (c.handleReply reply fresh).1) (c.handleReply reply fresh).2) := by
  rcases c.handleReply_cases reply fresh with ⟨join, _, h⟩ | ⟨_, tx, hcall, h⟩ | ⟨_, hnone, h⟩ <;>
    rw [h]
  · obtain ⟨result, hresult, _⟩ := (c.removeJoin reply.key).2.finishJoin_effects reply join fresh
    obtain ⟨_, _, hfinished⟩ := (c.removeJoin reply.key).2.finishJoin_fst reply join fresh
    rw [hresult, hfinished]
    exact .kept rfl (by simp [Effect.kept?])
  · have hperm : c.replyTxs.Perm
        (tx :: ((c.removeJoin reply.key).2.removeReplyTx reply.key reply.reference).2.replyTxs) := by
      apply replyTxs_perm
      · rw [Connected.removeReplyTx_pendingCall]
        exact if_pos ⟨rfl, rfl⟩
      · intro key reference
        rw [Connected.removeReplyTx_pendingCall, Connected.removeJoin_pendingCall]
        grind
    apply Balanced.next
    simpa [State.pending, Effect.kept?] using hperm.map Promise.reply
  · refine .kept ?_ (by simp)
    exact congrArg (List.map Promise.reply) (replyTxs_removeReplyTx hnone)

theorem balanced_handleMessage {message : Message} : Balanced (State.connected c).pending none
    (handleMessage now c message fresh) := by
  cases message with
  | control control =>
      simp only [handleMessage]
      split <;> exact .kept rfl (by simp)
  | reply reply =>
      simp only [handleMessage]
      split
      · exact .kept rfl (by simp)
      · exact balanced_handleReply
  | push push =>
      simp only [handleMessage]
      split
      · exact .push (by simp)
      · exact .kept rfl (by simp)
  | broadcast b =>
      simp only [handleMessage]
      obtain ⟨map, hmap⟩ := c.handleBroadcast_cases b
      rw [hmap]
      refine .kept rfl ?_
      rcases c.handleBroadcast_effects b with h | ⟨tx, h⟩ <;> simp [h, Effect.kept?]

theorem balanced_handleSocketMessage {message : SocketMessage} {sent : Except WebSocketError Unit} :
    Balanced (State.connected c).pending none (handleSocketMessage now c message sent fresh) := by
  have decoded : ∀ decoded, Balanced (State.connected c).pending none
      (handleDecoded now c decoded fresh) := by
    intro decoded
    cases decoded with
    | ok message => exact balanced_handleMessage
    | error => exact .kept rfl (by simp)
  cases message with
  | ping data =>
      cases sent with
      | ok => exact .kept rfl (by simp [Effect.kept?])
      | error => exact .waits
  | pong => exact .kept rfl (by simp)
  | close =>
      have h : Balanced (State.connected c).pending none (.next (waitToReconnectConnected now c).1
          ([.close] ++ (waitToReconnectConnected now c).2 ++ [])) := .lost rfl rfl
      rw [List.append_nil] at h
      exact h
  | text | binary =>
      simp only [handleSocketMessage]
      split
      · exact decoded _
      · exact .panic
  | frame => exact .panic

theorem balanced_handleSocketError {error : WebSocketError} :
    Balanced (State.connected c).pending none (handleSocketError now c error) := by
  cases error with
  | capacity | writeBufferFull | utf8 => exact .kept rfl (by simp)
  | attackAttempt | url | http | httpFormat => exact .exit
  | _ => exact .waits

/-- Where a message cannot be encoded the handler panics. -/
theorem balanced_encoded {held : List Promise} {message : Message}
    {handler : Panics (State × List Effect)} (h : Balanced held given (.ofPanics handler)) :
    Balanced held given (.ofPanics do
      let _data ← unwrap (← message.encode)
      handler) := by
  simp only [Option.bind_eq_bind]
  cases message.encode with
  | none => exact .panic
  | some encoded =>
      cases encoded with
      | error => exact .panic
      | ok data => exact h

theorem kept?_left {message : Message} {origin : Origin} {senders : Option JoinedChannelSenders}
    {tx : TxId} {result : Except Channel.LeaveError Unit} :
    List.filterMap Effect.kept? ([.write message origin]
      ++ (senders.map (fun senders => Effect.memberLeftTx senders.left)).toList
      ++ [.leftTx tx result]) = [.left tx] := by
  cases senders <;> rfl

theorem balanced_updateChannelState {command : ChannelStateCommand} {uuid : Uuid}
    {sent : Except WebSocketError Unit} :
    Balanced (State.connected c).pending (Input.channelStateCommand command uuid sent).promise?
      (.ofPanics (updateChannelState now c command uuid sent)) := by
  cases command with
  | join join =>
      apply balanced_encoded
      cases sent with
      | ok => exact .kept rfl (by simp [Effect.kept?])
      | error => exact .waits
  | leave l =>
      apply balanced_encoded
      cases sent with
      | ok => exact .answered rfl kept?_left
      | error error =>
          have h : Balanced (State.connected c).pending (some (.left l.leftTx))
              (.next (waitToReconnectConnected now c).1 ([] ++ (waitToReconnectConnected now c).2
                ++ [.leftTx l.leftTx (.error (.webSocketError error))])) := .lost rfl rfl
          exact h

theorem balanced_send {command : ChannelSendCommand} {uuid : Uuid}
    {sent : Except WebSocketError Unit}
    (hnew : ∀ k, command = .call k → c.pendingCall k.key (Reference.new uuid) = none) :
    Balanced (State.connected c).pending (Input.channelSendCommand command uuid sent).promise?
      (.ofPanics (send now c command uuid sent)) := by
  cases command with
  | call k =>
      apply balanced_encoded
      cases sent with
      | ok =>
          have hperm : (Connected.replyTxs { c with
              replyTxByReferenceByJoinReferenceByTopic :=
                c.replyTxByReferenceByJoinReferenceByTopic.put k.topic k.joinReference
                  (Reference.new uuid) k.replyTx }).Perm (k.replyTx :: c.replyTxs) :=
            replyTxs_perm (hnew k rfl) fun _ _ => Connected.called_pendingCall
          apply Balanced.next
          exact List.perm_append_comm.trans (hperm.map Promise.reply).symm
      | error error =>
          have h : Balanced (State.connected c).pending (some (.reply k.replyTx))
              (.next (waitToReconnectConnected now c).1
                ([.replyTx k.replyTx (.error (.webSocketError error))]
                  ++ (waitToReconnectConnected now c).2 ++ [])) := .lost rfl rfl
          rw [List.append_nil] at h
          exact h
  | cast k =>
      apply balanced_encoded
      cases sent with
      | ok => exact .kept rfl (by simp [Effect.kept?])
      | error => exact .waits

theorem balanced_heartbeat {uuid : Uuid} {sent : Except WebSocketError Unit} :
    Balanced (State.connected c).pending none (.ofPanics (heartbeat now c uuid sent)) := by
  unfold heartbeat
  split
  · exact .kept rfl (by simp)
  · apply balanced_encoded
    cases sent with
    | ok => exact .kept rfl (by simp [Effect.kept?])
    | error => exact .waits

theorem pending_waitAfterFailure {r : Reconnect} : (waitAfterFailure strategy now r).pending = [] := by
  cases strategy <;> rfl

theorem balanced_updateState {command : StateCommand} {outcome : ConnectOutcome} :
    Balanced state.pending (Input.stateCommand command outcome).promise?
      (.ofPanics (updateState strategy now state command outcome)) := by
  cases command with
  | connect connect =>
      have unconnected : Balanced [] (some (.connected connect.connectedTx))
          (.ofPanics (Socket.connect strategy now .neverConnected connect outcome)) := by
        cases outcome with
        | connected => exact .answered rfl rfl
        | error e => exact .answered pending_waitAfterFailure rfl
        | timeout => exact .answered pending_waitAfterFailure rfl
      cases state with
      | neverConnected => exact unconnected
      | disconnected => exact unconnected
      | connected | waitingToReconnect | shuttingDown => exact .answered rfl rfl
      | shutDown => exact .panic
  | disconnect tx =>
      cases state with
      | connected c => exact .lost rfl rfl
      | _ => exact .answered rfl rfl
  | shutdown =>
      cases state with
      | connected c =>
          have h : Balanced (State.connected c).pending none
              (.next .shuttingDown ([.close] ++ (sendDisconnected c .shutdown).2 ++ [])) := .lost rfl rfl
          rw [List.append_nil] at h
          exact h
      | _ => exact .kept rfl (by simp)

theorem balanced_reconnect {r : Reconnect} {outcome : ConnectOutcome} :
    Balanced [] none (.ofPanics (some (Socket.reconnect strategy now r outcome))) := by
  cases outcome with
  | connected => exact .kept rfl (by simp [Effect.kept?])
  | error e => exact .kept pending_waitAfterFailure (by simp [Effect.kept?])
  | timeout => exact .kept pending_waitAfterFailure (by simp)

/-- Every iteration is balanced where a call is given a new reference. -/
theorem balanced_select (h : select strategy now fresh state input = some iteration)
    (hnew : ∀ c k uuid sent, state = .connected c → input = .channelSendCommand (.call k) uuid sent →
      c.pendingCall k.key (Reference.new uuid) = none) :
    Balanced state.pending input.promise? iteration := by
  cases input with
  | socketResult result sent =>
      cases state with
      | connected c =>
          cases h
          cases result with
          | ok message => exact balanced_handleSocketMessage
          | error e => exact balanced_handleSocketError
      | _ => cases h
  | channelSpawn spawn uuid delivered =>
      simp only [select] at h
      split at h <;> cases h
      exact .answered rfl rfl
  | stateCommand command outcome =>
      simp only [select] at h
      split at h <;> cases h
      exact balanced_updateState
  | channelStateCommand command uuid sent =>
      cases state with
      | connected c =>
          cases h
          exact balanced_updateChannelState
      | _ => cases h
  | channelSendCommand command uuid sent =>
      cases state with
      | connected c =>
          cases h
          apply balanced_send
          rintro k rfl
          exact hnew c k uuid sent rfl rfl
      | _ => cases h
  | joinTimeout index =>
      cases state with
      | connected c =>
          simp only [select] at h
          split at h
          · split at h <;> cases h
            rw [Connected.joinTimedOut_fst, Connected.joinTimedOut_effects]
            refine .kept rfl ?_
            simp [Effect.kept?]
          · cases h
      | _ => cases h
  | heartbeat uuid sent =>
      cases state with
      | connected c =>
          simp only [select] at h
          split at h <;> cases h
          have hpending : (State.connected { c with heartbeat := c.heartbeat.tick now }).pending =
              (State.connected c).pending := by simp only [State.pending, Connected.replyTxs]
          exact hpending ▸ balanced_heartbeat
      | _ => cases h
  | sleepElapsed outcome =>
      cases state with
      | waitingToReconnect sleep r =>
          simp only [select] at h
          split at h <;> cases h
          exact balanced_reconnect
      | _ => cases h
  | closed =>
      cases state with
      | neverConnected | disconnected =>
          cases h
          exact .stop rfl rfl
      | _ => cases h
  | stop =>
      cases state with
      | shuttingDown | shutDown =>
          cases h
          exact .stop rfl rfl
      | _ => cases h

/-! ## Along a run -/

/-- Each sender that came with a command was sent into or is held on to, and none twice. -/
def PromisesKept (w : World) : Prop := w.promised.Perm (w.kept ++ w.pending)

/-- The listener runs, or has ended without an error. -/
def World.inOrder (w : World) : Prop := w.task.isRunning = true ∨ w.task = .exited (.ok ())

theorem record_promised : (w.record state input iteration).promised =
    w.promised ++ input.promise?.toList := by
  rw [World.promised, record_trace, List.filterMap_append]
  cases h : input.promise? <;> simp [World.promised, h]

theorem record_kept : (w.record state input iteration).kept =
    w.kept ++ (World.outcome iteration).2.filterMap Effect.kept? := by
  simp [World.kept]

theorem Balanced.record (h : Balanced state.pending input.promise? iteration)
    (htask : w.task = .selecting state) (hw : PromisesKept w)
    (horder : (w.record state input iteration).inOrder) :
    PromisesKept (w.record state input iteration) := by
  have hpending : w.pending = state.pending := by simp [World.pending, htask]
  rw [PromisesKept, hpending] at hw
  have hbalance : (state.pending ++ input.promise?.toList).Perm
      ((World.outcome iteration).2.filterMap Effect.kept? ++
        (w.record state input iteration).pending) := by
    cases h with
    | next hperm => exact hperm
    | push hperm => exact hperm
    | stop hheld hgiven => rw [hheld, hgiven]; exact .refl _
    | exit | panic =>
        rcases horder with hruns | hends
        · cases hruns
        · cases hends
  rw [PromisesKept, record_promised, record_kept, List.append_assoc]
  refine (hw.append_right _).trans ?_
  rw [List.append_assoc]
  exact hbalance.append_left _

/-- The reference of a new call is not pending yet. -/
theorem pendingCall_new {ok : World → Label → Prop} {k : Call} {uuid : Uuid}
    {sent : Except WebSocketError Unit} (h : Run (machine strategy) ok World.init ls w)
    (htask : w.task = .selecting (.connected c))
    (hfresh : w.uuidFresh (.channelSendCommand (.call k) uuid sent) = true) :
    c.pendingCall k.key (Reference.new uuid) = none := by
  cases hcall : c.pendingCall k.key (Reference.new uuid) with
  | none => rfl
  | some tx =>
      have hwritten := requestsWritten_invariant.of_run h c (by rw [htask]; rfl)
      obtain ⟨i, k', uuid', hkey, _, href, ⟨e, origin, he, _, hmem⟩, _⟩ := hwritten.call hcall
      have hid : (callMessage k' uuid').id? = some ⟨k.key, Reference.new uuid⟩ := by
        rw [← hkey, ← href]
        rfl
      have hin : (⟨k.key, Reference.new uuid⟩, origin) ∈ written w.trace := by
        refine List.mem_flatMap.mpr ⟨e, List.mem_of_getElem? he, ?_⟩
        exact List.mem_filterMap.mpr ⟨_, hmem, by simp [Effect.written?, hid]⟩
      have hfresh' : w.uuidFresh (.channelSendCommand (.call k) uuid (.ok ())) = true := hfresh
      exact absurd rfl ((referencesDrawn_of_run h).push_ne hfresh' rfl _ hin)

theorem uuidFresh_of_step (h : (machine strategy).step w (.select input) = some w') :
    w.uuidFresh input = true := by
  simp only [machine, World.step] at h
  split at h
  · split at h
    · assumption
    · cases h
  · cases h

theorem inOrder_of_step (h : (machine strategy).step w label = some w') (hw' : w'.inOrder) :
    w.inOrder := by
  cases label with
  | elapse =>
      cases h
      exact hw'
  | select input =>
      obtain ⟨state, iteration, htask, _, _⟩ := step_select h
      exact .inl (by rw [htask]; rfl)
  | pushed | publish =>
      simp only [machine, World.step] at h
      split at h <;> cases h
      rename_i htask
      exact .inl (by rw [htask]; rfl)

theorem promisesKept_of_run (h : Run (machine strategy) Free World.init ls w) (hw : w.inOrder) :
    PromisesKept w := by
  refine h.invariant_of_run (I := fun w => w.inOrder → PromisesKept w) ?_ ?_ hw
  · intro _
    exact .refl _
  intro ls w label w' hrun ih _ hs hw'
  have hkept := ih (inOrder_of_step hs hw')
  cases label with
  | elapse =>
      cases hs
      exact hkept
  | select input =>
      obtain ⟨state, iteration, htask, hselect, rfl⟩ := step_select hs
      have hfresh : w.uuidFresh input = true := uuidFresh_of_step hs
      refine Balanced.record ?_ htask hkept hw'
      apply balanced_select hselect
      rintro c k uuid sent rfl rfl
      exact pendingCall_new hrun htask hfresh
  | pushed | publish =>
      simp only [machine, World.step] at hs
      split at hs <;> cases hs
      rename_i htask
      rw [PromisesKept, World.pending, htask] at hkept
      exact hkept

end PhoenixChannels.Socket
