import PhoenixChannels.Channel.Lemmas.Polls
import PhoenixChannels.System.State

/-!
# The senders of a channel listener

A channel listener answers no caller but those whose senders it holds, and it gets senders only from
its queues.
-/

namespace PhoenixChannels.Channel

/-- The `oneshot` sender that an effect sends into, and so consumes. -/
def Effect.tx? : Effect → Option TxId
  | joinedTx tx _ | leftTx tx _ => some tx
  | event _ | statusError _ => none

/-- The senders that an outcome holds or consumes. -/
def Flow.txs : Flow → List TxId
  | next state effects => state.heldTxs ++ effects.filterMap Effect.tx?
  | call c => c.heldTxs
  | exit _ effects => effects.filterMap Effect.tx?
  | panic _ => []

variable {env : Surroundings} {w w' : World} {state : State} {branch : Branch} {flow : Flow}
variable {read : Option TxId} {now : Instant} {tx : TxId}

/-! ## The handlers -/

@[simp] theorem tx?_sendJoinPayloadToChannelTxs {txs : List TxId}
    {result : Except JoinError Payload} :
    (sendJoinPayloadToChannelTxs txs result).filterMap Effect.tx? = txs := by
  simp [sendJoinPayloadToChannelTxs, List.filterMap_map, Effect.tx?, Function.comp_def]

@[simp] theorem tx?_sendToChannelTxs {txs : List TxId} {result : Except LeaveError Unit} :
    (sendToChannelTxs txs result).filterMap Effect.tx? = txs := by
  simp [sendToChannelTxs, List.filterMap_map, Effect.tx?, Function.comp_def]

theorem txs_connectivityChanged {connectivity : Connectivity} :
    (connectivityChanged now state connectivity).1.heldTxs
      ++ (connectivityChanged now state connectivity).2.filterMap Effect.tx? = state.heldTxs := by
  cases state with
  | waitingForSocketToConnect rejoin =>
      rcases connectivity with _ | d
      · cases rejoin <;> rfl
      · cases d <;> rfl
  | shuttingDown | shutDown => rfl
  | _ =>
      rcases connectivity with _ | d
      · simp [connectivityChanged, State.heldTxs]
      · cases d <;> simp [connectivityChanged, State.heldTxs]

theorem txs_shutdown :
    (shutdown state).1.heldTxs ++ (shutdown state).2.filterMap Effect.tx? = state.heldTxs := by
  cases state <;> simp [shutdown, State.heldTxs]

theorem txs_joinedResultReceived {joining : Joining}
    {result : Except Socket.JoinError JoinedChannelReceivers} :
    (joinedResultReceived now joining result).1.heldTxs
      ++ (joinedResultReceived now joining result).2.filterMap Effect.tx?
      = joining.channelJoinedTxs := by
  rcases result with error | receivers
  · cases error <;> exact tx?_sendJoinPayloadToChannelTxs
  · exact tx?_sendJoinPayloadToChannelTxs

theorem txs_pushReceived {joined : Joined} {push : Push} :
    (pushReceived now joined push).1.heldTxs
      ++ (pushReceived now joined push).2.filterMap Effect.tx? = [] := by
  simp only [pushReceived]
  split <;> rfl

theorem txs_socketShutdown {error : Socket.ShutdownError} :
    (socketShutdown state error).txs = state.heldTxs := by
  cases state <;> simp [socketShutdown, Flow.txs, State.heldTxs]

theorem txs_join {createdAt : Instant} {timeout : Duration} :
    (join now state createdAt timeout tx).txs ⊆ state.heldTxs ++ [tx] := by
  cases state <;>
    simp only [join, socketJoinIfNotTimedOut, socketJoin] <;>
    first
      | (split <;> simp [Flow.txs, SocketCall.heldTxs, State.heldTxs, Rejoin.wait])
      | simp [Flow.txs, State.heldTxs, Effect.tx?]

theorem txs_leave : (leave state tx).txs ⊆ state.heldTxs ++ [tx] := by
  cases state <;> simp [leave, Flow.txs, SocketCall.heldTxs, State.heldTxs, Effect.tx?]

theorem txs_updateState {command : StateCommand} :
    (updateState now state command).txs ⊆ state.heldTxs ++ [command.tx] := by
  cases command with
  | join createdAt timeout joinedTx => exact txs_join
  | leave leftTx => exact txs_leave

theorem txs_send {joined : Joined} {command : SendCommand} :
    (send joined command).txs = command.tx?.toList := by
  cases command <;> rfl

theorem txs_sent {call : SocketCall} {fresh : TxId} :
    (call.sent fresh).1.heldTxs ++ (call.sent fresh).2.filterMap Effect.tx? ⊆ call.heldTxs := by
  cases call with
  | join state deadline rejoin txs =>
      cases state <;> simp [SocketCall.sent, SocketCall.heldTxs, State.heldTxs]
  | _ => simp [SocketCall.sent, SocketCall.heldTxs, State.heldTxs]

theorem txs_failed {call : SocketCall} {error : Socket.ShutdownError} :
    (call.failed error).txs ⊆ call.heldTxs := by
  cases call with
  | join state deadline rejoin txs =>
      simp [SocketCall.failed, txs_socketShutdown, SocketCall.heldTxs]
  | _ => simp [SocketCall.failed, Flow.txs, SocketCall.heldTxs, State.heldTxs, Effect.tx?]

/-! ## Polls -/

/-- The senders of the commands in the queues. -/
def World.queuedTxs (w : World) : List TxId :=
  w.stateCommandRx.map StateCommand.tx ++ w.sendCommandRx.filterMap SendCommand.tx?

theorem mem_heldTxs : tx ∈ w.heldTxs ↔ tx ∈ w.queuedTxs ∨ tx ∈ w.task.heldTxs := List.mem_append

theorem proceed_heldTxs (h : tx ∈ (w.proceed flow).heldTxs) : tx ∈ w.queuedTxs ∨ tx ∈ flow.txs := by
  rw [mem_heldTxs] at h
  cases flow with
  | next state effects => exact h.imp_right fun h => List.mem_append_left _ h
  | call call => exact h
  | exit | panic => rcases h with h | h <;> cases h

theorem proceed_effects {effect : Effect} (h : effect ∈ (w.proceed flow).effects) :
    effect ∈ w.effects ∨ ∀ tx, effect.tx? = some tx → tx ∈ flow.txs := by
  have added : ∀ {effects : List Effect}, effect ∈ w.effects ++ effects →
      effect ∈ w.effects ∨ ∀ tx, effect.tx? = some tx → tx ∈ effects.filterMap Effect.tx? := by
    intro effects h
    exact (List.mem_append.mp h).imp_right fun h tx htx => List.mem_filterMap.mpr ⟨effect, h, htx⟩
  cases flow with
  | next state effects => exact (added h).imp_right fun h tx htx => List.mem_append_right _ (h tx htx)
  | call call => exact .inl h
  | exit error effects => exact added h
  | panic reason => exact .inl (by simpa [World.proceed, World.finish] using h)

theorem BranchReady.txs (h : BranchReady env w state branch w' flow) :
    w'.queuedTxs ⊆ w.queuedTxs ∧ flow.txs ⊆ w.queuedTxs ++ state.heldTxs := by
  have kept : ∀ {txs : List TxId}, txs = state.heldTxs → txs ⊆ w.queuedTxs ++ state.heldTxs :=
    fun h => h ▸ List.subset_append_right _ _
  cases h with
  | shutdown => exact ⟨List.Subset.refl _, kept txs_shutdown⟩
  | connectivity => exact ⟨List.Subset.refl _, kept txs_connectivityChanged⟩
  | socketJoined => exact ⟨List.Subset.refl _, kept txs_joinedResultReceived⟩
  | socketJoinedClosed => exact ⟨List.Subset.refl _, kept txs_socketShutdown⟩
  | left => exact ⟨List.Subset.refl _, List.nil_subset _⟩
  | socketLeft =>
      refine ⟨List.Subset.refl _, kept ?_⟩
      simp [Flow.txs, Leaving.left, State.heldTxs]
  | sleep => exact ⟨List.Subset.refl _, List.nil_subset _⟩
  | @stateCommand state command rest hrx =>
      constructor
      · simp [World.queuedTxs, hrx]
      · refine List.Subset.trans txs_updateState ?_
        intro tx htx
        rcases List.mem_append.mp htx with htx | htx
        · exact List.mem_append_right _ htx
        · obtain rfl := List.mem_singleton.mp htx
          simp [World.queuedTxs, hrx]
  | @sendCommand joined command rest hrx =>
      constructor
      · intro tx
        simp only [World.queuedTxs, hrx, List.filterMap_cons, List.mem_append]
        cases command.tx? <;> simp +contextual [or_imp]
      · rw [txs_send]
        intro tx htx
        have hcommand : command.tx? = some tx := by simpa using htx
        simp [World.queuedTxs, hrx, hcommand]
  | push => exact ⟨List.Subset.refl _, kept txs_pushReceived⟩
  | broadcast => exact ⟨List.Subset.refl _, List.nil_subset _⟩

theorem PollStep.heldTxs (h : PollStep env w w' read) : w'.heldTxs ⊆ w.heldTxs := by
  intro tx htx
  rw [mem_heldTxs] at htx ⊢
  cases h with
  | breakOk => rcases htx with htx | htx <;> cases htx
  | round htask | pending htask =>
      rw [htask]
      exact htx
  | mismatch htask hmismatch =>
      rw [htask]
      cases hmismatch <;> exact htx
  | ready htask hready =>
      obtain ⟨hqueued, hflow⟩ := hready.txs
      rw [htask]
      rcases proceed_heldTxs (mem_heldTxs.mpr htx) with htx | htx
      · exact .inl (hqueued htx)
      · exact List.mem_append.mp (hflow htx)

theorem PollStep.effects_cases {effect : Effect} (h : PollStep env w w' read)
    (heffect : effect ∈ w'.effects) :
    effect ∈ w.effects ∨ ∀ tx, effect.tx? = some tx → tx ∈ w.heldTxs := by
  cases h with
  | breakOk => exact .inl (by simpa [World.breakOk, World.finish] using heffect)
  | round | pending => exact .inl heffect
  | mismatch htask hmismatch => cases hmismatch <;> exact .inl heffect
  | ready htask hready =>
      rcases proceed_effects heffect with h | h
      · exact .inl (hready.effects ▸ h)
      · refine .inr fun tx htx => ?_
        rw [mem_heldTxs, htask]
        exact List.mem_append.mp (hready.txs.2 (h tx htx))

/-! ## The end of the task -/

theorem proceed_queuedTxs (h : (w.proceed flow).task.isRunning = false) :
    (w.proceed flow).queuedTxs = [] := by
  cases flow with
  | next | call => cases h
  | exit | panic => rfl

theorem PollStep.queuedTxs_of_ended (h : PollStep env w w' read)
    (hended : w'.task.isRunning = false) : w'.queuedTxs = [] := by
  cases h with
  | breakOk => rfl
  | round | pending | mismatch => cases hended
  | ready => exact proceed_queuedTxs hended

end PhoenixChannels.Channel
