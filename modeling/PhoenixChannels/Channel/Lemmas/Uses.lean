import PhoenixChannels.Channel.Lemmas.Polls
import PhoenixChannels.Socket.Listener

/-!
# What a channel listener does with senders

A sender that comes with a join is used for answers to joins, one that comes with a leave for answers
to leaves, and a listener awaits no answer of the socket but that to a command of its own.
-/

namespace PhoenixChannels.Channel

/-- What a listener does with the sender or the receiver of a `oneshot` channel, or with the ticket
of a cast. -/
inductive Use
  | join
  | leave
  | cast (eventPayload : EventPayload)
  | call (eventPayload : EventPayload)
  /-- Awaits the answer of the socket. -/
  | awaits

def StateCommand.use : StateCommand → TxId × Use
  | join _ _ joinedTx => (joinedTx, .join)
  | leave leftTx => (leftTx, .leave)

def SendCommand.use : SendCommand → TxId × Use
  | cast eventPayload ticket => (ticket, .cast eventPayload)
  | call eventPayload replyTx => (replyTx, .call eventPayload)

def Joining.uses (joining : Joining) : List (TxId × Use) :=
  (joining.socketJoinedRx, .awaits) :: joining.channelJoinedTxs.map (fun tx => (tx, .join))

def Leaving.uses (leaving : Leaving) : List (TxId × Use) :=
  (leaving.socketLeftRx, .awaits) :: leaving.channelLeftTxs.map (fun tx => (tx, .leave))

def State.uses : State → List (TxId × Use)
  | joining j => j.uses
  | leaving l => l.uses
  | _ => []

def SocketCall.uses : SocketCall → List (TxId × Use)
  | join state _ _ channelJoinedTxs => state.uses ++ channelJoinedTxs.map (fun tx => (tx, .join))
  | leaveJoining joining leftTx => joining.uses ++ [(leftTx, .leave)]
  | leaveJoined _ leftTx => [(leftTx, .leave)]
  | cast _ eventPayload ticket => [(ticket, .cast eventPayload)]
  | call _ eventPayload replyTx => [(replyTx, .call eventPayload)]

def Task.uses : Task → List (TxId × Use)
  | selecting state _ _ => state.uses
  | calling call => call.uses
  | publishing state => state.uses
  | exited _ | panicked _ => []

def Effect.use? : Effect → Option (TxId × Use)
  | joinedTx tx _ => some (tx, .join)
  | leftTx tx _ => some (tx, .leave)
  | event _ | statusError _ => none

def Flow.uses : Flow → List (TxId × Use)
  | next state effects => state.uses ++ effects.filterMap Effect.use?
  | call c => c.uses
  | exit _ effects => effects.filterMap Effect.use?
  | panic _ => []

namespace World

/-- The commands that wait in the queues. -/
def queuedUses (w : World) : List (TxId × Use) :=
  w.stateCommandRx.map StateCommand.use ++ w.sendCommandRx.map SendCommand.use

/-- All that the listener does with senders, what it has done included. -/
def uses (w : World) : List (TxId × Use) :=
  w.queuedUses ++ w.task.uses ++ w.effects.filterMap Effect.use?

end World

variable {env : Surroundings} {w w' : World} {state : State} {branch : Branch} {flow : Flow}
variable {read : Option TxId} {now : Instant} {tx : TxId} {x : TxId × Use}

theorem World.mem_uses : x ∈ w.uses ↔
    x ∈ w.queuedUses ∨ x ∈ w.task.uses ∨ x ∈ w.effects.filterMap Effect.use? := by
  simp [World.uses]

theorem World.uses_stateCommand {command : StateCommand}
    (h : x ∈ World.uses { w with stateCommandRx := w.stateCommandRx ++ [command] }) :
    x ∈ w.uses ∨ x = command.use := by
  simp only [World.uses, World.queuedUses, List.map_append, List.map_cons, List.map_nil,
    List.mem_append, List.mem_singleton] at h ⊢
  grind

theorem World.uses_sendCommand {command : SendCommand}
    (h : x ∈ World.uses { w with sendCommandRx := w.sendCommandRx ++ [command] }) :
    x ∈ w.uses ∨ x = command.use := by
  simp only [World.uses, World.queuedUses, List.map_append, List.map_cons, List.map_nil,
    List.mem_append, List.mem_singleton] at h ⊢
  grind

/-! ## The handlers -/

@[simp] theorem use?_sendJoinPayloadToChannelTxs {txs : List TxId}
    {result : Except JoinError Payload} :
    (sendJoinPayloadToChannelTxs txs result).filterMap Effect.use? =
      txs.map (fun tx => (tx, .join)) := by
  simp [sendJoinPayloadToChannelTxs, List.filterMap_map, Effect.use?, Function.comp_def]

@[simp] theorem use?_sendToChannelTxs {txs : List TxId} {result : Except LeaveError Unit} :
    (sendToChannelTxs txs result).filterMap Effect.use? = txs.map (fun tx => (tx, .leave)) := by
  simp [sendToChannelTxs, List.filterMap_map, Effect.use?, Function.comp_def]

theorem uses_connectivityChanged {connectivity : Connectivity} :
    (Flow.next (connectivityChanged now state connectivity).1
      (connectivityChanged now state connectivity).2).uses ⊆ state.uses := by
  cases state with
  | waitingForSocketToConnect rejoin =>
      rcases connectivity with _ | d
      · cases rejoin <;> simp [connectivityChanged, Flow.uses, State.uses, Rejoin.wait]
      · cases d <;> simp [connectivityChanged, Flow.uses, State.uses]
  | _ =>
      rcases connectivity with _ | d
      · simp [connectivityChanged, Flow.uses, State.uses, Joining.uses, Leaving.uses]
      · cases d <;> simp [connectivityChanged, Flow.uses, State.uses, Joining.uses, Leaving.uses]

theorem uses_shutdown : (Flow.next (shutdown state).1 (shutdown state).2).uses ⊆ state.uses := by
  cases state <;> simp [shutdown, Flow.uses, State.uses, Joining.uses, Leaving.uses]

theorem uses_joinedResultReceived {joining : Joining}
    {result : Except Socket.JoinError JoinedChannelReceivers} :
    (Flow.next (joinedResultReceived now joining result).1
      (joinedResultReceived now joining result).2).uses ⊆ joining.uses := by
  rcases result with error | receivers
  · cases error <;>
      simp [joinedResultReceived, Flow.uses, State.uses, Joining.uses, Rejoin.wait,
        List.filterMap_cons, Effect.use?]
  · simp [joinedResultReceived, Flow.uses, State.uses, Joining.uses]

theorem uses_pushReceived {joined : Joined} {push : Push} :
    (Flow.next (pushReceived now joined push).1 (pushReceived now joined push).2).uses = [] := by
  simp only [pushReceived]
  split <;> rfl

theorem uses_socketShutdown {error : Socket.ShutdownError} :
    (socketShutdown state error).uses ⊆ state.uses := by
  cases state <;> simp [socketShutdown, Flow.uses, State.uses, Joining.uses, Leaving.uses]

theorem uses_join {createdAt : Instant} {timeout : Duration} :
    (join now state createdAt timeout tx).uses ⊆ state.uses ++ [(tx, .join)] := by
  cases state <;>
    simp only [join, socketJoinIfNotTimedOut, socketJoin] <;>
    first
      | (split <;> simp [Flow.uses, SocketCall.uses, State.uses, Rejoin.wait])
      | simp [Flow.uses, State.uses, Joining.uses, Effect.use?]

theorem uses_leave : (leave state tx).uses ⊆ state.uses ++ [(tx, .leave)] := by
  cases state <;>
    simp [leave, Flow.uses, SocketCall.uses, State.uses, Leaving.uses, Effect.use?]

theorem uses_updateState {command : StateCommand} :
    (updateState now state command).uses ⊆ state.uses ++ [command.use] := by
  cases command with
  | join createdAt timeout joinedTx => exact uses_join
  | leave leftTx => exact uses_leave

theorem uses_send {joined : Joined} {command : SendCommand} :
    (send joined command).uses = [command.use] := by
  cases command <;> rfl

theorem uses_sent {call : SocketCall} {fresh : TxId} :
    (Flow.next (call.sent fresh).1 (call.sent fresh).2).uses ⊆ (fresh, .awaits) :: call.uses := by
  cases call with
  | join state deadline rejoin txs =>
      intro x hx
      cases state <;>
        simp [SocketCall.sent, Flow.uses, SocketCall.uses, State.uses, Joining.uses,
          Leaving.uses] at hx ⊢ <;>
        grind
  | leaveJoining joining leftTx =>
      intro x hx
      simp [SocketCall.sent, Flow.uses, SocketCall.uses, State.uses, Joining.uses,
        Leaving.uses] at hx ⊢
      grind
  | _ => simp [SocketCall.sent, Flow.uses, SocketCall.uses, State.uses, Leaving.uses]

theorem uses_sent_of_send {call : SocketCall} {listener : Listener} {fresh : TxId}
    {command : ChannelSendCommand} (h : call.command listener fresh = .inr command) :
    (Flow.next (call.sent fresh).1 (call.sent fresh).2).uses = [] := by
  cases call <;> cases h <;> rfl

theorem uses_failed {call : SocketCall} {error : Socket.ShutdownError} :
    (call.failed error).uses ⊆ call.uses := by
  cases call with
  | join state deadline rejoin txs =>
      exact List.Subset.trans uses_socketShutdown (List.subset_append_left _ _)
  | _ => simp [SocketCall.failed, Flow.uses, SocketCall.uses, State.uses, Effect.use?]

/-! ## Polls -/

theorem proceed_uses (h : x ∈ (w.proceed flow).uses) :
    x ∈ w.queuedUses ∨ x ∈ w.effects.filterMap Effect.use? ∨ x ∈ flow.uses := by
  rw [World.mem_uses] at h
  cases flow with
  | next state effects =>
      simp only [World.proceed, List.filterMap_append, List.mem_append] at h
      simp only [Flow.uses, List.mem_append]
      rcases h with h | h | h | h
      · exact .inl h
      · exact .inr (.inr (.inl h))
      · exact .inr (.inl h)
      · exact .inr (.inr (.inr h))
  | call c =>
      rcases h with h | h | h
      · exact .inl h
      · exact .inr (.inr h)
      · exact .inr (.inl h)
  | exit error effects =>
      simp only [World.proceed, World.finish, List.filterMap_append, List.mem_append] at h
      rcases h with h | h | h | h
      · cases h
      · cases h
      · exact .inr (.inl h)
      · exact .inr (.inr h)
  | panic reason =>
      simp only [World.proceed, World.finish, List.append_nil] at h
      rcases h with h | h | h
      · cases h
      · cases h
      · exact .inr (.inl h)

theorem BranchReady.uses (h : BranchReady env w state branch w' flow) :
    w'.queuedUses ⊆ w.queuedUses ∧ flow.uses ⊆ w.queuedUses ++ state.uses := by
  have kept : flow.uses ⊆ state.uses → flow.uses ⊆ w.queuedUses ++ state.uses :=
    fun h => List.Subset.trans h (List.subset_append_right _ _)
  cases h with
  | shutdown => exact ⟨List.Subset.refl _, kept uses_shutdown⟩
  | connectivity => exact ⟨List.Subset.refl _, kept uses_connectivityChanged⟩
  | socketJoined => exact ⟨List.Subset.refl _, kept uses_joinedResultReceived⟩
  | socketJoinedClosed => exact ⟨List.Subset.refl _, kept uses_socketShutdown⟩
  | left | sleep | broadcast => exact ⟨List.Subset.refl _, List.nil_subset _⟩
  | socketLeft =>
      refine ⟨List.Subset.refl _, kept ?_⟩
      simp [Flow.uses, Leaving.left, State.uses, Leaving.uses]
  | @stateCommand state command rest hrx =>
      constructor
      · simp [World.queuedUses, hrx]
      · refine List.Subset.trans uses_updateState ?_
        intro x hx
        rcases List.mem_append.mp hx with hx | hx
        · exact List.mem_append_right _ hx
        · obtain rfl := List.mem_singleton.mp hx
          simp [World.queuedUses, hrx]
  | @sendCommand joined command rest hrx =>
      constructor
      · intro x hx
        simp only [World.queuedUses, hrx, List.map_cons, List.mem_append, List.mem_cons] at hx ⊢
        exact hx.imp_right .inr
      · rw [uses_send]
        simp [World.queuedUses, hrx]
  | push => exact ⟨List.Subset.refl _, kept (by rw [uses_pushReceived]; exact List.nil_subset _)⟩

/-- A poll puts no sender to a new use. -/
theorem PollStep.uses (h : PollStep env w w' read) : w'.uses ⊆ w.uses := by
  intro x hx
  cases h with
  | breakOk =>
      rw [World.mem_uses] at hx ⊢
      simp only [World.breakOk, World.finish, List.append_nil] at hx
      rcases hx with hx | hx | hx
      · cases hx
      · cases hx
      · exact .inr (.inr hx)
  | round htask | pending htask =>
      rw [World.mem_uses] at hx ⊢
      rw [htask]
      exact hx
  | mismatch htask hmismatch =>
      rw [World.mem_uses] at hx ⊢
      rw [htask]
      cases hmismatch <;> exact hx
  | ready htask hready =>
      obtain ⟨hqueued, hflow⟩ := hready.uses
      rw [World.mem_uses, htask]
      rcases proceed_uses hx with hx | hx | hx
      · exact .inl (hqueued hx)
      · exact .inr (.inr (hready.effects ▸ hx))
      · rcases List.mem_append.mp (hflow hx) with hx | hx
        · exact .inl hx
        · exact .inr (.inl hx)

theorem spawn_uses {listener : Listener} {before : Socket.State} {seen : Nat} :
    (World.spawn listener (Socket.channelState before) seen).uses = [] := by
  cases before <;> rfl

end PhoenixChannels.Channel
