import PhoenixChannels.Channel.Lemmas.Polls
import PhoenixChannels.System.State

/-!
# The payloads that a channel listener hands out

A listener makes up no payload: those it answers joins with, and the one it keeps while it is joined,
all come with an answer of the socket to one of its joins. Nor does it answer with an error that no
handler of it knows.
-/

namespace PhoenixChannels.Channel

/-- The status and the payload of the reply that an answer stands for. -/
def Effect.reply? : Effect → Option (ReplyStatus × Payload)
  | joinedTx _ (.ok payload) => some (.ok, payload)
  | joinedTx _ (.error (.rejected payload)) => some (.error, payload)
  | _ => none

def State.replies : State → List (ReplyStatus × Payload)
  | joined j => [(.ok, j.payload)]
  | _ => []

def Task.replies (task : Task) : List (ReplyStatus × Payload) :=
  task.joined?.toList.map fun joined => (.ok, joined.payload)

def Flow.replies : Flow → List (ReplyStatus × Payload)
  | next state effects => state.replies ++ effects.filterMap Effect.reply?
  | call c => (Task.calling c).replies
  | exit _ effects => effects.filterMap Effect.reply?
  | panic _ => []

/-- The replies that the listener has handed out, or still holds. -/
def World.replies (w : World) : List (ReplyStatus × Payload) :=
  w.task.replies ++ w.effects.filterMap Effect.reply?

/-- The reply in the answer of the socket to a join. -/
def replyOf? : Except Socket.JoinError JoinedChannelReceivers → Option (ReplyStatus × Payload)
  | .ok receivers => some (.ok, receivers.payload)
  | .error (.rejected payload) => some (.error, payload)
  | .error _ => none

variable {env : Surroundings} {w w' : World} {state : State} {branch : Branch} {flow : Flow}
variable {read : Option TxId} {now : Instant} {tx : TxId} {x : ReplyStatus × Payload}

@[simp] theorem replies_selecting {rest disabled : List Branch} :
    (Task.selecting state rest disabled).replies = state.replies := by
  cases state <;> rfl

@[simp] theorem replies_publishing : (Task.publishing state).replies = state.replies := by
  cases state <;> rfl

/-! ## The handlers -/

@[simp] theorem reply?_sendJoinPayloadToChannelTxs {txs : List TxId} {error : JoinError}
    (h : ∀ payload, error ≠ .rejected payload) :
    (sendJoinPayloadToChannelTxs txs (.error error)).filterMap Effect.reply? = [] := by
  refine List.filterMap_eq_nil_iff.mpr fun effect hmem => ?_
  obtain ⟨tx, _, rfl⟩ := List.mem_map.mp hmem
  cases error <;> first | rfl | exact absurd rfl (h _)

@[simp] theorem reply?_sendToChannelTxs {txs : List TxId} {result : Except LeaveError Unit} :
    (sendToChannelTxs txs result).filterMap Effect.reply? = [] := by
  simp [sendToChannelTxs, Effect.reply?]

theorem replies_connectivityChanged {connectivity : Connectivity} :
    (Flow.next (connectivityChanged now state connectivity).1
      (connectivityChanged now state connectivity).2).replies = [] := by
  cases state with
  | waitingForSocketToConnect rejoin =>
      rcases connectivity with _ | d
      · cases rejoin <;> rfl
      · cases d <;> rfl
  | _ =>
      rcases connectivity with _ | d
      · simp [connectivityChanged, Flow.replies, State.replies]
      · cases d <;> simp [connectivityChanged, Flow.replies, State.replies]

theorem replies_shutdown : (Flow.next (shutdown state).1 (shutdown state).2).replies = [] := by
  cases state <;> simp [shutdown, Flow.replies, State.replies]

theorem replies_socketShutdown {error : Socket.ShutdownError} :
    (socketShutdown state error).replies = [] := by
  cases state <;> simp [socketShutdown, Flow.replies]

theorem replies_joinedResultReceived {joining : Joining}
    {result : Except Socket.JoinError JoinedChannelReceivers}
    (hx : x ∈ (Flow.next (joinedResultReceived now joining result).1
      (joinedResultReceived now joining result).2).replies) : replyOf? result = some x := by
  rcases result with error | receivers
  · cases error <;>
      simp [joinedResultReceived, Flow.replies, State.replies, Rejoin.wait, List.filterMap_cons,
        sendJoinPayloadToChannelTxs, Effect.reply?, replyOf?] at hx ⊢
    exact hx.2
  · simp [joinedResultReceived, Flow.replies, State.replies, sendJoinPayloadToChannelTxs,
      Effect.reply?, replyOf?] at hx ⊢
    tauto

theorem replies_pushReceived {joined : Joined} {push : Push} :
    (Flow.next (pushReceived now joined push).1 (pushReceived now joined push).2).replies ⊆
      [(.ok, joined.payload)] := by
  simp only [pushReceived]
  split <;> simp [Flow.replies, State.replies, Rejoin.wait, Effect.reply?]

theorem replies_updateState {command : StateCommand} :
    (updateState now state command).replies ⊆ state.replies := by
  cases command with
  | join createdAt timeout joinedTx =>
      cases state <;>
        simp only [updateState, join, socketJoinIfNotTimedOut, socketJoin] <;>
        first
          | (split <;> simp [Flow.replies, State.replies, Task.replies, Task.joined?, Rejoin.wait])
          | simp [Flow.replies, State.replies, Effect.reply?]
  | leave leftTx =>
      cases state <;>
        simp [updateState, leave, Flow.replies, State.replies, Task.replies, Task.joined?,
          Effect.reply?]

theorem replies_send {joined : Joined} {command : SendCommand} :
    (send joined command).replies = [(.ok, joined.payload)] := by
  cases command <;> rfl

theorem replies_sent {call : SocketCall} {fresh : TxId} :
    (Flow.next (call.sent fresh).1 (call.sent fresh).2).replies ⊆ (Task.calling call).replies := by
  cases call with
  | join state deadline rejoin txs =>
      cases state <;> simp [SocketCall.sent, Flow.replies, State.replies]
  | leaveJoining joining leftTx =>
      simp [SocketCall.sent, Flow.replies, State.replies]
  | _ => simp [SocketCall.sent, Flow.replies, State.replies, Task.replies, Task.joined?]

theorem replies_failed {call : SocketCall} {error : Socket.ShutdownError} :
    (call.failed error).replies ⊆ (Task.calling call).replies := by
  cases call with
  | join state deadline rejoin txs => simp [SocketCall.failed, replies_socketShutdown]
  | _ =>
      simp [SocketCall.failed, Flow.replies, State.replies, Task.replies, Task.joined?,
        Effect.reply?]

/-! ## Polls -/

theorem proceed_replies (h : x ∈ (w.proceed flow).replies) :
    x ∈ flow.replies ∨ x ∈ w.effects.filterMap Effect.reply? := by
  cases flow with
  | next state effects =>
      simp only [World.replies, World.proceed, replies_publishing, List.filterMap_append,
        List.mem_append, Flow.replies] at h ⊢
      tauto
  | call c =>
      simpa [World.replies, World.proceed, Flow.replies] using h
  | exit error effects =>
      simp only [World.replies, World.proceed, World.finish, Task.replies, Task.joined?,
        Option.toList_none, List.map_nil, List.nil_append, List.filterMap_append,
        List.mem_append, Flow.replies] at h ⊢
      tauto
  | panic reason =>
      simp only [World.replies, World.proceed, World.finish, Task.replies, Task.joined?,
        Option.toList_none, List.map_nil, List.nil_append, List.append_nil] at h
      exact .inr h

/-- A reply that a listener hands out after a poll it had before, or the socket has just answered its
join with it. -/
theorem PollStep.replies (h : PollStep env w w' read) (hx : x ∈ w'.replies) :
    x ∈ w.replies ∨ ∃ joining result, w.task.joining? = some joining ∧
      env.joined joining.socketJoinedRx = .sent result ∧ replyOf? result = some x := by
  cases h with
  | breakOk =>
      simp only [World.replies, World.breakOk, World.finish, List.append_nil] at hx
      exact .inl (List.mem_append_right _ hx)
  | round htask | pending htask =>
      simp only [World.replies, replies_selecting, htask] at hx ⊢
      exact .inl hx
  | mismatch htask hmismatch =>
      simp only [World.replies, replies_selecting, htask] at hx ⊢
      cases hmismatch <;> exact .inl hx
  | @ready state branch rest disabled w₁ flow htask hready =>
      have held : x ∈ state.replies → x ∈ w.replies := by
        intro hx
        simp [World.replies, htask, hx]
      rcases proceed_replies hx with hflow | hold
      · cases hready with
        | shutdown =>
            rw [replies_shutdown] at hflow
            cases hflow
        | connectivity =>
            rw [replies_connectivityChanged] at hflow
            cases hflow
        | @socketJoined joining result hresult =>
            exact .inr ⟨joining, result, by rw [htask]; rfl, hresult,
              replies_joinedResultReceived hflow⟩
        | socketJoinedClosed =>
            rw [replies_socketShutdown] at hflow
            cases hflow
        | left | sleep => cases hflow
        | socketLeft => simp [Flow.replies, Leaving.left, State.replies] at hflow
        | stateCommand => exact .inl (held (replies_updateState hflow))
        | sendCommand =>
            rw [replies_send] at hflow
            exact .inl (held hflow)
        | push => exact .inl (held (replies_pushReceived hflow))
        | broadcast =>
            simp only [Flow.replies, List.filterMap_cons, Effect.reply?, List.filterMap_nil,
              List.append_nil] at hflow
            exact .inl (held hflow)
      · exact .inl (List.mem_append_right _ (hready.effects ▸ hold))

/-! ## Errors -/

/-- The answer has no error that the error types know, but no handler gives. -/
def Effect.known : Effect → Bool
  | joinedTx _ (.error .shutdown) => false
  | leftTx _ (.error (.webSocketError _)) | leftTx _ (.error (.socketShutdown _))
    | leftTx _ (.error .shuttingDown) | leftTx _ (.error .joinBeforeLeft) => true
  | leftTx _ (.error _) => false
  | _ => true

/-- The effects that an outcome has at once. -/
def Flow.effects : Flow → List Effect
  | next _ effects | exit _ effects => effects
  | call _ | panic _ => []

theorem known_sendJoinPayloadToChannelTxs {txs : List TxId} {result : Except JoinError Payload}
    (h : ∀ tx, (Effect.joinedTx tx result).known = true) :
    ∀ effect ∈ sendJoinPayloadToChannelTxs txs result, effect.known = true := by
  intro effect hmem
  obtain ⟨tx, _, rfl⟩ := List.mem_map.mp hmem
  exact h tx

theorem known_sendToChannelTxs {txs : List TxId} {result : Except LeaveError Unit}
    (h : ∀ tx, (Effect.leftTx tx result).known = true) :
    ∀ effect ∈ sendToChannelTxs txs result, effect.known = true := by
  intro effect hmem
  obtain ⟨tx, _, rfl⟩ := List.mem_map.mp hmem
  exact h tx

theorem known_connectivityChanged {connectivity : Connectivity} :
    ∀ effect ∈ (connectivityChanged now state connectivity).2, effect.known = true := by
  cases state with
  | waitingForSocketToConnect rejoin =>
      rcases connectivity with _ | d
      · cases rejoin <;> nofun
      · cases d <;> nofun
  | joining j =>
      rcases connectivity with _ | d
      · exact known_sendJoinPayloadToChannelTxs fun _ => rfl
      · cases d <;> exact known_sendJoinPayloadToChannelTxs fun _ => rfl
  | leaving l =>
      rcases connectivity with _ | d
      · exact known_sendToChannelTxs fun _ => rfl
      · cases d <;> exact known_sendToChannelTxs fun _ => rfl
  | _ =>
      rcases connectivity with _ | d
      · nofun
      · cases d <;> nofun

theorem known_shutdown : ∀ effect ∈ (shutdown state).2, effect.known = true := by
  cases state with
  | joining j => exact known_sendJoinPayloadToChannelTxs fun _ => rfl
  | leaving l => exact known_sendToChannelTxs fun _ => rfl
  | _ => nofun

theorem known_socketShutdown {error : Socket.ShutdownError} :
    ∀ effect ∈ (socketShutdown state error).effects, effect.known = true := by
  cases state with
  | joining j => exact known_sendJoinPayloadToChannelTxs fun _ => rfl
  | leaving l => exact known_sendToChannelTxs fun _ => rfl
  | _ => nofun

theorem known_joinedResultReceived {joining : Joining}
    {result : Except Socket.JoinError JoinedChannelReceivers} :
    ∀ effect ∈ (joinedResultReceived now joining result).2, effect.known = true := by
  rcases result with error | receivers
  · cases error with
    | rejected payload =>
        intro effect hmem
        rcases List.mem_append.mp hmem with hmem | hmem
        · obtain rfl := List.mem_singleton.mp hmem
          rfl
        · exact known_sendJoinPayloadToChannelTxs (fun _ => rfl) effect hmem
    | _ => exact known_sendJoinPayloadToChannelTxs fun _ => rfl
  · exact known_sendJoinPayloadToChannelTxs fun _ => rfl

theorem known_pushReceived {joined : Joined} {push : Push} :
    ∀ effect ∈ (pushReceived now joined push).2, effect.known = true := by
  simp only [pushReceived]
  split <;> simp [Effect.known]

theorem known_updateState {command : StateCommand} :
    ∀ effect ∈ (updateState now state command).effects, effect.known = true := by
  cases command with
  | join createdAt timeout joinedTx =>
      cases state <;>
        simp only [updateState, join, socketJoinIfNotTimedOut, socketJoin] <;>
        first
          | (split <;> simp [Flow.effects])
          | simp [Flow.effects, Effect.known]
  | leave leftTx =>
      cases state <;> simp [updateState, leave, Flow.effects, Effect.known]

theorem known_sent {call : SocketCall} {fresh : TxId} :
    ∀ effect ∈ (call.sent fresh).2, effect.known = true := by
  cases call with
  | join state deadline rejoin txs =>
      cases state with
      | leaving l => exact known_sendToChannelTxs fun _ => rfl
      | _ => nofun
  | leaveJoining joining leftTx => exact known_sendJoinPayloadToChannelTxs fun _ => rfl
  | _ => nofun

theorem known_failed {call : SocketCall} {error : Socket.ShutdownError} :
    ∀ effect ∈ (call.failed error).effects, effect.known = true := by
  cases call with
  | join state deadline rejoin txs => exact known_socketShutdown
  | _ => simp [SocketCall.failed, Flow.effects, Effect.known]

theorem proceed_effects_eq : (w.proceed flow).effects = w.effects ++ flow.effects := by
  cases flow <;> simp [World.proceed, World.finish, Flow.effects]

/-- An answer that is given in a poll is a known one, or what the socket has said about a leave. -/
theorem PollStep.known {effect : Effect} (h : PollStep env w w' read) (hmem : effect ∈ w'.effects) :
    effect ∈ w.effects ∨ effect.known = true ∨
      ∃ rx tx result, env.left rx = .sent result ∧ effect = .leftTx tx result := by
  cases h with
  | breakOk => exact .inl (by simpa [World.breakOk, World.finish] using hmem)
  | round | pending => exact .inl hmem
  | mismatch htask hmismatch => cases hmismatch <;> exact .inl hmem
  | ready htask hready =>
      rw [proceed_effects_eq, hready.effects] at hmem
      rcases List.mem_append.mp hmem with hold | hnew
      · exact .inl hold
      · right
        cases hready with
        | shutdown => exact .inl (known_shutdown effect hnew)
        | connectivity => exact .inl (known_connectivityChanged effect hnew)
        | socketJoined => exact .inl (known_joinedResultReceived effect hnew)
        | socketJoinedClosed => exact .inl (known_socketShutdown effect hnew)
        | left | sleep => cases hnew
        | @socketLeft leaving result hresult =>
            obtain ⟨tx, _, rfl⟩ := List.mem_map.mp hnew
            exact .inr ⟨_, tx, result, hresult, rfl⟩
        | stateCommand => exact .inl (known_updateState effect hnew)
        | @sendCommand joined command => cases command <;> cases hnew
        | push => exact .inl (known_pushReceived effect hnew)
        | broadcast =>
            obtain rfl := List.mem_singleton.mp hnew
            exact .inl rfl

end PhoenixChannels.Channel
