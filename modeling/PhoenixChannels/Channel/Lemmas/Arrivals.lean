import PhoenixChannels.Channel.Lemmas.Polls
import PhoenixChannels.System.State

/-!
# Messages that a joined channel takes

What one poll takes from the push queue or the broadcast channel, and the events that the listener
sends.
-/

namespace PhoenixChannels

/-- A message for a joined channel. -/
inductive Arrival
  | push (push : Push)
  | broadcast (broadcast : Broadcast)

namespace Arrival

def eventPayload : Arrival → EventPayload
  | push p => p.eventPayload
  | broadcast b => b.eventPayload

def push? : Arrival → Option Push
  | push p => some p
  | _ => none

def broadcast? : Arrival → Option Broadcast
  | broadcast b => some b
  | _ => none

end Arrival

namespace Channel

/-- The message that the next poll takes, with the push queue of the membership that takes it. -/
def World.takes (env : Surroundings) (w : World) : Option (TxId × Arrival) :=
  match w.task with
  | .selecting (.joined joined) (.push :: _) _ =>
      (env.pushes joined.pushRx).head?.map fun push => (joined.pushRx, .push push)
  | .selecting (.joined joined) (.broadcast :: _) _ =>
      match (env.broadcasts joined.broadcastRx.tx).recv joined.broadcastRx.next with
      | (.message broadcast, _) => some (joined.pushRx, .broadcast broadcast)
      | _ => none
  | _ => none

/-- The events that the listener has sent. -/
def World.events (w : World) : List EventPayload := w.effects.filterMap Effect.event?

def Flow.events : Flow → List EventPayload
  | next _ effects | exit _ effects => effects.filterMap Effect.event?
  | call _ | panic _ => []

variable {env : Surroundings} {w w' : World} {state : State} {branch : Branch} {flow : Flow}
variable {now : Instant} {read : Option TxId} {tx : TxId}

theorem proceed_events : (w.proceed flow).events = w.events ++ flow.events := by
  cases flow <;> simp [World.events, World.proceed, World.finish, Flow.events]

@[simp] theorem event?_sendJoinPayloadToChannelTxs {txs : List TxId}
    {result : Except JoinError Payload} :
    (sendJoinPayloadToChannelTxs txs result).filterMap Effect.event? = [] := by
  simp [sendJoinPayloadToChannelTxs, Effect.event?]

@[simp] theorem event?_sendToChannelTxs {txs : List TxId} {result : Except LeaveError Unit} :
    (sendToChannelTxs txs result).filterMap Effect.event? = [] := by
  simp [sendToChannelTxs, Effect.event?]

theorem events_shutdown : (shutdown state).2.filterMap Effect.event? = [] := by
  cases state <;> simp [shutdown]

theorem events_connectivityChanged {connectivity : Connectivity} :
    (connectivityChanged now state connectivity).2.filterMap Effect.event? = [] := by
  cases state with
  | waitingForSocketToConnect rejoin =>
      rcases connectivity with _ | d
      · cases rejoin <;> rfl
      · cases d <;> rfl
  | _ =>
      rcases connectivity with _ | d
      · simp [connectivityChanged]
      · cases d <;> simp [connectivityChanged]

theorem events_joinedResultReceived {joining : Joining}
    {result : Except Socket.JoinError JoinedChannelReceivers} :
    (joinedResultReceived now joining result).2.filterMap Effect.event? = [] := by
  rcases result with error | receivers
  · cases error with
    | rejected =>
        simp only [joinedResultReceived, List.filterMap_append, event?_sendJoinPayloadToChannelTxs]
        rfl
    | _ => exact event?_sendJoinPayloadToChannelTxs
  · exact event?_sendJoinPayloadToChannelTxs

theorem events_socketShutdown {error : Socket.ShutdownError} :
    (socketShutdown state error).events = [] := by
  cases state <;> simp [socketShutdown, Flow.events]

theorem events_updateState {command : StateCommand} : (updateState now state command).events = [] := by
  cases command with
  | join createdAt timeout joinedTx =>
      cases state <;> simp only [updateState, join, socketJoinIfNotTimedOut, socketJoin]
      all_goals first | rfl | (split <;> rfl)
  | leave leftTx => cases state <;> rfl

theorem events_sent {call : SocketCall} {fresh : TxId} :
    (call.sent fresh).2.filterMap Effect.event? = [] := by
  cases call with
  | join state => cases state <;> simp [SocketCall.sent]
  | _ => simp [SocketCall.sent]

theorem events_failed {call : SocketCall} {error : Socket.ShutdownError} :
    (call.failed error).events = [] := by
  cases call with
  | join => exact events_socketShutdown
  | _ => rfl

theorem takes_eq_none (env : Surroundings) {rest disabled : List Branch}
    (htask : w.task = .selecting state (branch :: rest) disabled) (hpush : branch ≠ .push)
    (hbroadcast : branch ≠ .broadcast) :
    w.takes env = none ∧ World.pushRead state branch = none := by
  unfold World.takes World.pushRead
  rw [htask]
  cases state <;> cases branch <;> first | exact ⟨rfl, rfl⟩ | contradiction

theorem BranchReady.takes {rest disabled : List Branch}
    (htask : w.task = .selecting state (branch :: rest) disabled)
    (h : BranchReady env w state branch w' flow) :
    flow.events = ((w.takes env).map fun x => x.2.eventPayload).toList ∧
      World.pushRead state branch =
        (w.takes env).bind fun x => x.2.push?.map fun _ => x.1 := by
  have other : branch ≠ .push → branch ≠ .broadcast → flow.events = [] →
      flow.events = ((w.takes env).map fun x => x.2.eventPayload).toList ∧
        World.pushRead state branch =
          (w.takes env).bind fun x => x.2.push?.map fun _ => x.1 := by
    intro hpush hbroadcast hevents
    obtain ⟨htakes, hread⟩ := takes_eq_none env htask hpush hbroadcast
    rw [htakes, hread, hevents]
    exact ⟨rfl, rfl⟩
  cases h with
  | shutdown => exact other (by simp) (by simp) events_shutdown
  | connectivity => exact other (by simp) (by simp) events_connectivityChanged
  | socketJoined => exact other (by simp) (by simp) events_joinedResultReceived
  | socketJoinedClosed => exact other (by simp) (by simp) events_socketShutdown
  | left | sleep => exact other (by simp) (by simp) rfl
  | socketLeft => exact other (by simp) (by simp) event?_sendToChannelTxs
  | stateCommand => exact other (by simp) (by simp) events_updateState
  | @sendCommand joined command => exact other (by simp) (by simp) (by cases command <;> rfl)
  | @push joined push rest hpushes =>
      simp only [World.takes, htask, hpushes]
      refine ⟨?_, rfl⟩
      simp only [pushReceived]
      split <;> rfl
  | broadcast hrecv =>
      simp only [World.takes, htask, hrecv]
      exact ⟨rfl, rfl⟩

/-- A listener sends the events of the messages that it takes, and no others. -/
theorem poll_takes (h : w.poll env = some (w', read)) :
    w'.events = w.events ++ ((w.takes env).map fun x => x.2.eventPayload).toList ∧
      read = (w.takes env).bind fun x => x.2.push?.map fun _ => x.1 := by
  have nothing : ∀ {state branch rest disabled}, w.task = .selecting state (branch :: rest) disabled →
      (∀ w' flow, w.pollBranch env state branch ≠ .ready w' flow) → w.takes env = none := by
    intro state branch rest disabled htask hnot
    unfold World.takes
    rw [htask]
    split
    · rename_i joined _ _ heq
      cases heq
      cases hpushes : env.pushes joined.pushRx with
      | nil => rfl
      | cons => simp [World.pollBranch, hpushes, World.readyNext] at hnot
    · rename_i joined _ _ heq
      cases heq
      split
      · rename_i hrecv
        simp [World.pollBranch, hrecv, World.readyNext] at hnot
      · rfl
    · rfl
  cases poll_cases h with
  | breakOk htask => simp [World.takes, htask, World.breakOk, World.finish, World.events]
  | round htask => simp [World.takes, htask, World.events]
  | pending htask hpending =>
      rw [nothing htask (by simp [hpending])]
      simp [World.events]
  | mismatch htask hmismatch hpoll =>
      rw [nothing htask (by simp [hpoll])]
      cases hmismatch <;> simp [World.events]
  | ready htask hready =>
      obtain ⟨hevents, hread⟩ := hready.takes htask
      refine ⟨?_, hread⟩
      rw [proceed_events, hevents, World.events, hready.effects]
      rfl

/-! ## The membership of a listener -/

def State.joined? : State → Option Joined
  | joined j => some j
  | _ => none

/-- The membership that a handler goes on with. -/
def Flow.joined? : Flow → Option Joined
  | next state _ => state.joined?
  | call (.leaveJoined j _) | call (.cast j _ _) | call (.call j _ _) => some j
  | _ => none

@[simp] theorem joined?_selecting {rest disabled : List Branch} :
    (Task.selecting state rest disabled).joined? = state.joined? := by cases state <;> rfl

@[simp] theorem joined?_publishing : (Task.publishing state).joined? = state.joined? := by
  cases state <;> rfl

theorem proceed_joined? : (w.proceed flow).task.joined? = flow.joined? := by
  cases flow with
  | next state => cases state <;> rfl
  | call c => cases c <;> rfl
  | exit | panic => rfl

/-- The listener polls the branch of the broadcasts now. -/
def Task.readsBroadcast : Task → Bool
  | selecting (.joined _) (.broadcast :: _) _ => true
  | _ => false

/-- How a listener comes to the membership that it has after a poll. -/
inductive JoinedCase (env : Surroundings) (w : World) (joined' : Joined) : Prop
  | kept : w.task.readsBroadcast = false → w.task.joined? = some joined' →
      JoinedCase env w joined'
  | read {joined : Joined} : w.task.readsBroadcast = true → w.task.joined? = some joined →
      joined' = { joined with broadcastRx := { joined.broadcastRx with
        next := ((env.broadcasts joined.broadcastRx.tx).recv joined.broadcastRx.next).2 } } →
      JoinedCase env w joined'
  | answered {joining : Joining} {rest disabled : List Branch} {receivers : JoinedChannelReceivers} :
      w.task = .selecting (.joining joining) (.socketJoined :: rest) disabled →
      env.joined joining.socketJoinedRx = .sent (.ok receivers) →
      joined'.pushRx = receivers.push → joined'.broadcastRx = receivers.broadcast →
      JoinedCase env w joined'

theorem readsBroadcast_eq {rest disabled : List Branch}
    (htask : w.task = .selecting state (branch :: rest) disabled) (h : branch ≠ .broadcast) :
    w.task.readsBroadcast = false := by
  rw [htask]
  unfold Task.readsBroadcast
  split
  · rename_i heq
    cases heq
    exact absurd rfl h
  · rfl

theorem connectivityChanged_joined? {connectivity : Connectivity} :
    (connectivityChanged now state connectivity).1.joined? = none := by
  cases state with
  | waitingForSocketToConnect rejoin =>
      rcases connectivity with _ | d
      · cases rejoin <;> rfl
      · cases d <;> rfl
  | _ =>
      rcases connectivity with _ | d
      · rfl
      · cases d <;> rfl

theorem updateState_joined? {command : StateCommand} {joined : Joined}
    (h : (updateState now state command).joined? = some joined) : state.joined? = some joined := by
  cases command with
  | join createdAt timeout joinedTx =>
      cases state <;>
        simp only [updateState, join, socketJoinIfNotTimedOut, socketJoin] at h
      case joined => exact h
      all_goals first | cases h | (split at h <;> cases h)
  | leave leftTx =>
      cases state <;> cases h
      rfl

theorem BranchReady.joined {rest disabled : List Branch} {joined' : Joined}
    (htask : w.task = .selecting state (branch :: rest) disabled)
    (h : BranchReady env w state branch w' flow) (hflow : flow.joined? = some joined') :
    JoinedCase env w joined' := by
  cases h with
  | shutdown => cases state <;> cases hflow
  | connectivity =>
      rw [Flow.joined?, connectivityChanged_joined?] at hflow
      cases hflow
  | @socketJoined joining result hsent =>
      rcases result with error | receivers
      · cases error <;> cases hflow
      · cases hflow
        exact .answered htask hsent rfl rfl
  | stateCommand =>
      refine .kept (readsBroadcast_eq htask (by simp)) ?_
      rw [htask, joined?_selecting]
      exact updateState_joined? hflow
  | @sendCommand joined command =>
      refine .kept (readsBroadcast_eq htask (by simp)) ?_
      rw [htask]
      cases command <;> exact hflow
  | @push joined push =>
      refine .kept (readsBroadcast_eq htask (by simp)) ?_
      rw [htask]
      simp only [pushReceived] at hflow
      split at hflow
      · cases hflow
      · exact hflow
  | broadcast hrecv =>
      cases hflow
      exact .read (by rw [htask]; rfl) (by rw [htask]; rfl) (by rw [hrecv])
  | socketJoinedClosed | left | socketLeft | sleep => cases hflow

/-- A branch that is not ready leaves the membership as it is, or has read nothing or too late. -/
theorem joined_of_unready {rest disabled : List Branch} {joined joined' : Joined}
    (htask : w.task = .selecting state (branch :: rest) disabled) (hj : state.joined? = some joined)
    (h : branch ≠ .broadcast ∧ joined' = joined ∨ branch = .broadcast ∧
      joined' = { joined with broadcastRx := { joined.broadcastRx with
        next := ((env.broadcasts joined.broadcastRx.tx).recv joined.broadcastRx.next).2 } }) :
    JoinedCase env w joined' := by
  have hj' : w.task.joined? = some joined := by rw [htask, joined?_selecting, hj]
  rcases h with ⟨hbranch, rfl⟩ | ⟨rfl, hjoined⟩
  · exact .kept (readsBroadcast_eq htask hbranch) hj'
  · refine .read ?_ hj' hjoined
    rw [htask]
    cases state <;> cases hj
    rfl

theorem PollStep.joined {joined' : Joined} (h : PollStep env w w' read)
    (hj : w'.task.joined? = some joined') : JoinedCase env w joined' := by
  cases h with
  | breakOk => cases hj
  | @round state disabled htask =>
      refine .kept ?_ (by simpa [htask] using hj)
      rw [htask]
      cases state <;> rfl
  | @pending state branch rest disabled htask hpending =>
      rw [joined?_selecting] at hj
      by_cases hbranch : branch = .broadcast
      · cases state with
        | joined joined =>
            cases hj
            refine joined_of_unready htask rfl (.inr ⟨hbranch, ?_⟩)
            subst hbranch
            simp only [World.pollBranch] at hpending
            split at hpending
            · cases hpending
            · cases hpending
            · rename_i hrecv
              rw [hrecv, BroadcastQueue.recv_empty_eq hrecv]
        | _ => cases hj
      · exact joined_of_unready htask hj (.inl ⟨hbranch, rfl⟩)
  | @mismatch state branch rest disabled w₁ state' htask hmismatch hpoll =>
      rw [joined?_selecting] at hj
      by_cases hbranch : branch = .broadcast
      · subst hbranch
        cases state with
        | joined joined =>
            refine joined_of_unready htask rfl (.inr ⟨rfl, ?_⟩)
            simp only [World.pollBranch] at hpoll
            split at hpoll
            · cases hpoll
            · rename_i hrecv
              cases hpoll
              rw [hrecv]
              exact (Option.some.inj hj).symm
            · rename_i hrecv
              split at hpoll <;> cases hpoll
              rw [hrecv, BroadcastQueue.recv_empty_eq hrecv]
              exact (Option.some.inj hj).symm
        | _ => cases hpoll
      · cases hmismatch with
        | lagged | closed => exact joined_of_unready htask hj (.inl ⟨hbranch, rfl⟩)
        | broadcastLagged => exact absurd rfl hbranch
  | ready htask hready =>
      rw [proceed_joined?] at hj
      exact hready.joined htask hj

theorem readsBroadcast_joined {task : Task} (h : task.readsBroadcast = true) :
    ∃ joined rest disabled, task = .selecting (.joined joined) (.broadcast :: rest) disabled := by
  unfold Task.readsBroadcast at h
  split at h
  · exact ⟨_, _, _, rfl⟩
  · cases h

theorem sent_joined? {call : SocketCall} {fresh : TxId} {joined : Joined}
    (h : (call.sent fresh).1.joined? = some joined) :
    (Task.calling call).joined? = some joined ∧
      ∀ listener fresh', ∃ command, call.command listener fresh' = .inr command := by
  cases call with
  | cast | call => exact ⟨h, fun _ _ => ⟨_, rfl⟩⟩
  | join | leaveJoining | leaveJoined => cases h

theorem failed_joined? {call : SocketCall} {error : Socket.ShutdownError} {joined : Joined}
    (h : (call.failed error).joined? = some joined) :
    (Task.calling call).joined? = some joined := by
  cases call with
  | join state => cases state <;> cases h
  | leaveJoined => exact h
  | leaveJoining | cast | call => cases h

end Channel

end PhoenixChannels
