import PhoenixChannels.Channel.Lemmas.Senders
import PhoenixChannels.Channel.Machine

/-!
# Joiners and leavers

The senders of joins and leaves that a channel listener has taken from its queue, those that it
holds, and those that it has answered.
-/

namespace PhoenixChannels.Channel

open Machine
open scoped List

variable {env : Surroundings} {w w' : World} {state : State} {branch : Branch} {flow : Flow}
variable {read : Option TxId} {now : Instant} {tx : TxId} {label : Label} {ls : List Label}
variable {c : SocketCall}

/-! ## The property and its condition -/

/-- The command that a branch takes from the queue. -/
def World.command? (w : World) : Branch → Option StateCommand
  | .stateCommand => w.stateCommandRx.head?
  | _ => none

def taken (w : World) (label : Label) : Option StateCommand :=
  (polled w label).bind fun (_, _, branch) => w.command? branch

/-- The senders of the joins and leaves that the steps of a run take. -/
def receivedTxs (steps : List (World × Label)) : List TxId :=
  steps.flatMap fun (w, label) => ((taken w label).map StateCommand.tx).toList

/-- The senders of joins and leaves that a handler holds while it is suspended. -/
def SocketCall.pendingTxs : SocketCall → List TxId
  | join state _ _ channelJoinedTxs => state.heldTxs ++ channelJoinedTxs
  | leaveJoining joining leftTx => joining.channelJoinedTxs ++ [leftTx]
  | leaveJoined _ leftTx => [leftTx]
  | cast _ _ _ | call _ _ _ => []

/-- The senders in the pending list of the current state. -/
def Task.pendingTxs : Task → List TxId
  | selecting state _ _ | publishing state => state.heldTxs
  | calling call => call.pendingTxs
  | exited _ | panicked _ => []

/-- The senders of the joins and leaves that were answered, once for each answer. -/
def World.answeredTxs (w : World) : List TxId := w.effects.filterMap Effect.tx?

/-- Every sender that was received is held or was answered, and that once. -/
def SettledOnce (steps : List (World × Label)) (w : World) : Prop :=
  w.task.isRunning = true → (receivedTxs steps).Perm (w.task.pendingTxs ++ w.answeredTxs)

/-- A join that has to be sent to the socket comes before its deadline. -/
def StateCommand.inTime (now : Instant) (state : State) : StateCommand → Bool
  | join createdAt timeout _ => !state.startsJoin || now ≤ createdAt + timeout
  | leave _ => true

/-- No join that has to be sent to the socket is processed after its deadline. -/
def joinsInTime (w : World) (label : Label) : Bool :=
  (polled w label).all fun (env, state, branch) =>
    (w.command? branch).all (StateCommand.inTime env.now state)

/-! ## The handlers -/

/-- The senders of joins and leaves that an outcome holds or answers. -/
def Flow.settledTxs : Flow → List TxId
  | next state effects => state.heldTxs ++ effects.filterMap Effect.tx?
  | call c => c.pendingTxs
  | exit _ _ | panic _ => []

def Flow.runs : Flow → Bool
  | next _ _ | call _ => true
  | exit _ _ | panic _ => false

theorem settled_updateState {command : StateCommand}
    (hruns : (updateState now state command).runs = true)
    (htime : command.inTime now state = true) :
    (updateState now state command).settledTxs.Perm (state.heldTxs ++ [command.tx]) := by
  cases command with
  | join createdAt timeout tx =>
      simp only [StateCommand.inTime, Bool.or_eq_true, Bool.not_eq_true', decide_eq_true_eq] at htime
      cases state with
      | waitingForSocketToConnect => cases hruns
      | waitingToJoin | leaving | left =>
          have hnow : now ≤ createdAt + timeout := by simpa [State.startsJoin] using htime
          simp [updateState, join, socketJoinIfNotTimedOut, hnow, socketJoin, Flow.settledTxs,
            SocketCall.pendingTxs, State.heldTxs, StateCommand.tx]
      | _ => simp [updateState, join, Flow.settledTxs, State.heldTxs, Effect.tx?, StateCommand.tx]
  | leave tx =>
      cases state <;>
        simp [updateState, leave, Flow.settledTxs, SocketCall.pendingTxs, State.heldTxs,
          Effect.tx?, StateCommand.tx]

/-- A join that is sent to the socket while another one is pending would lose the joiners of that. -/
def SocketCall.joinsOnce : SocketCall → Prop
  | join state _ _ _ => ∀ joining, state ≠ .joining joining
  | _ => True

theorem settled_sent {fresh : TxId} (honce : c.joinsOnce) :
    ((c.sent fresh).1.heldTxs ++ (c.sent fresh).2.filterMap Effect.tx?).Perm c.pendingTxs := by
  cases c with
  | join state deadline rejoin txs =>
      cases state with
      | joining joining => exact absurd rfl (honce joining)
      | leaving leaving =>
          simp only [SocketCall.sent, SocketCall.pendingTxs, State.heldTxs, tx?_sendToChannelTxs]
          exact List.perm_append_comm
      | _ => simp [SocketCall.sent, SocketCall.pendingTxs, State.heldTxs]
  | leaveJoining joining tx =>
      simp only [SocketCall.sent, SocketCall.pendingTxs, State.heldTxs,
        tx?_sendJoinPayloadToChannelTxs]
      exact List.perm_append_comm
  | _ => simp [SocketCall.sent, SocketCall.pendingTxs, State.heldTxs]

theorem settled_failed {error : Socket.ShutdownError} (hruns : (c.failed error).runs = true) :
    (c.failed error).settledTxs.Perm c.pendingTxs := by
  cases c with
  | join state => cases state <;> cases hruns
  | _ =>
      simp [SocketCall.failed, Flow.settledTxs, SocketCall.pendingTxs, State.heldTxs, Effect.tx?]

/-! ## Steps -/

theorem BranchReady.settled (h : BranchReady env w state branch w' flow)
    (hruns : flow.runs = true)
    (htime : (w.command? branch).all (StateCommand.inTime env.now state) = true) :
    flow.settledTxs.Perm (state.heldTxs ++ ((w.command? branch).map StateCommand.tx).toList) := by
  have kept : ∀ {txs : List TxId}, txs = state.heldTxs → txs.Perm (state.heldTxs ++ []) := by
    intro txs htxs
    rw [htxs, List.append_nil]
  cases h with
  | shutdown => exact kept txs_shutdown
  | connectivity => exact kept txs_connectivityChanged
  | socketJoined => exact kept txs_joinedResultReceived
  | socketJoinedClosed => cases hruns
  | left => exact .refl _
  | socketLeft =>
      refine kept ?_
      simp [Flow.settledTxs, Leaving.left, State.heldTxs]
  | sleep => exact .refl _
  | stateCommand hrx =>
      simp only [World.command?, hrx, List.head?_cons, Option.all_some] at htime ⊢
      exact settled_updateState hruns htime
  | @sendCommand joined command =>
      cases command <;> exact .refl _
  | push => exact kept txs_pushReceived
  | broadcast => exact .refl _

/-- The senders that a listener holds or has answered. -/
def World.settledTxs (w : World) : List TxId := w.task.pendingTxs ++ w.answeredTxs

theorem settled_proceed (hruns : (w.proceed flow).task.isRunning = true) :
    flow.runs = true ∧ (w.proceed flow).settledTxs.Perm (flow.settledTxs ++ w.answeredTxs) := by
  cases flow with
  | next state effects =>
      refine ⟨rfl, ?_⟩
      simp only [World.settledTxs, World.answeredTxs, World.proceed, Task.pendingTxs,
        Flow.settledTxs, List.filterMap_append, List.append_assoc]
      exact .append_left _ List.perm_append_comm
  | call call => exact ⟨rfl, .refl _⟩
  | exit | panic => cases hruns

/-- The listener is not about to send a join while one is pending. -/
def World.JoinsOnce (w : World) : Prop := ∀ c, w.task = .calling c → c.joinsOnce

theorem BranchReady.joinsOnce (h : BranchReady env w state branch w' flow) (hflow : flow = .call c) :
    c.joinsOnce := by
  cases h with
  | sleep =>
      cases hflow
      intro joining hjoining
      cases hjoining
  | @stateCommand state command =>
      cases command with
      | join createdAt timeout tx =>
          cases state <;>
            simp only [updateState, join, socketJoinIfNotTimedOut, socketJoin, reduceCtorEq] at hflow
          all_goals
            split at hflow <;> cases hflow
            intro joining hjoining
            cases hjoining
      | leave tx => cases state <;> cases hflow <;> trivial
  | @sendCommand joined command => cases command <;> cases hflow <;> trivial
  | _ => cases hflow

theorem Step.joinsOnce (h : Step w label w') (hw : w.JoinsOnce) : w'.JoinsOnce := by
  intro c hc
  cases h with
  | asked | stateCommand | sendCommand => exact hw c hc
  | poll hpoll =>
      cases hpoll with
      | breakOk | round | pending | mismatch => cases hc
      | @ready state branch rest disabled v flow htask hready =>
          cases flow with
          | call => 
              cases hc
              exact hready.joinsOnce rfl
          | _ => cases hc
  | sent => cases hc
  | @failed call shutdownError htask =>
      cases shutdownError with
      | error => cases hc
      | ok error =>
          cases call with
          | join state => cases state <;> cases hc
          | _ => cases hc
  | publish => cases hc

theorem command?_of_not_ready (h : ∀ w' flow, w.pollBranch env state branch ≠ .ready w' flow) :
    w.command? branch = none := by
  cases branch with
  | stateCommand =>
      cases hrx : w.stateCommandRx with
      | nil => simp [World.command?, hrx]
      | cons command rest =>
          exact absurd (pollBranch_stateCommand hrx) (h _ _)
  | _ => rfl

theorem PollStep.settled (h : PollStep env w w' read)
    (hok : joinsInTime w (.poll env) = true) (hruns : w'.task.isRunning = true) :
    w'.settledTxs.Perm (w.settledTxs ++ ((taken w (.poll env)).map StateCommand.tx).toList) := by
  cases h with
  | breakOk => cases hruns
  | round htask =>
      simp [World.settledTxs, World.answeredTxs, taken, polled, htask, Task.pendingTxs]
  | @pending state branch rest disabled htask hpolled =>
      have hready : ∀ v flow, w.pollBranch env state branch ≠ .ready v flow := by simp [hpolled]
      have hnone := command?_of_not_ready hready
      simp [World.settledTxs, World.answeredTxs, taken, polled, htask, Task.pendingTxs, hnone]
  | @mismatch state branch rest disabled v state' htask hmismatch hpolled =>
      have hready : ∀ v flow, w.pollBranch env state branch ≠ .ready v flow := by simp [hpolled]
      have hnone := command?_of_not_ready hready
      cases hmismatch <;>
        simp [World.settledTxs, World.answeredTxs, taken, polled, htask, Task.pendingTxs, hnone,
          State.heldTxs]
  | @ready state branch rest disabled v flow htask hready =>
      obtain ⟨hflow, hsettled⟩ := settled_proceed hruns
      have hcommand : taken w (.poll env) = w.command? branch := by simp [taken, polled, htask]
      have heffects : v.answeredTxs = w.answeredTxs := by
        rw [World.answeredTxs, hready.effects, World.answeredTxs]
      have htime : (w.command? branch).all (StateCommand.inTime env.now state) = true := by
        simpa [joinsInTime, polled, htask] using hok
      have hpending : w.task.pendingTxs = state.heldTxs := by rw [htask]; rfl
      rw [hcommand, World.settledTxs, World.settledTxs, hpending]
      rw [World.settledTxs, heffects] at hsettled
      calc (v.proceed flow).task.pendingTxs ++ (v.proceed flow).answeredTxs
        _ ~ flow.settledTxs ++ w.answeredTxs := hsettled
        _ ~ state.heldTxs ++ ((w.command? branch).map StateCommand.tx).toList ++ w.answeredTxs :=
            (hready.settled hflow htime).append_right _
        _ ~ state.heldTxs ++ w.answeredTxs ++ ((w.command? branch).map StateCommand.tx).toList := by
            simp only [List.append_assoc]
            exact List.perm_append_comm.append_left _

theorem Step.settled (h : Step w label w') (honce : w.JoinsOnce) (hok : joinsInTime w label = true)
    (hruns : w'.task.isRunning = true) :
    w'.settledTxs.Perm (w.settledTxs ++ ((taken w label).map StateCommand.tx).toList) := by
  have kept : ∀ {txs : List TxId}, txs.Perm w.settledTxs → txs.Perm (w.settledTxs ++ []) := by
    intro txs htxs
    rwa [List.append_nil]
  cases h with
  | asked | stateCommand | sendCommand => exact kept (.refl _)
  | poll hpoll => exact hpoll.settled hok hruns
  | @sent c fresh htask =>
      refine kept ?_
      have hpending : w.task.pendingTxs = c.pendingTxs := by rw [htask]; rfl
      have hsettled : ((w.sent fresh c).settledTxs).Perm
          ((c.sent fresh).1.heldTxs ++ (c.sent fresh).2.filterMap Effect.tx? ++ w.answeredTxs) := by
        simp only [World.settledTxs, World.sent, World.answeredTxs, Task.pendingTxs,
          List.filterMap_append, List.append_assoc]
        exact List.perm_append_comm.append_left _
      refine hsettled.trans ?_
      rw [World.settledTxs, hpending]
      exact (settled_sent (honce c htask)).append_right _
  | @failed call shutdownError htask =>
      cases shutdownError with
      | error => cases hruns
      | ok error =>
          obtain ⟨hflow, hsettled⟩ := settled_proceed hruns
          refine kept (hsettled.trans ?_)
          rw [World.settledTxs, htask]
          exact (settled_failed hflow).append_right _
  | publish htask =>
      refine kept ?_
      rw [World.settledTxs, World.settledTxs, htask]
      exact .refl _

/-! ## Runs -/

theorem joinsOnce_of_run {ok : World → Label → Prop} {listener : Listener} {before : Socket.State}
    {seen : Nat} (h : Run machine ok (start listener before seen) ls w) : w.JoinsOnce :=
  h.invariant (fun c hc => by cases hc) fun _ _ _ ih _ hs => (step_cases hs).joinsOnce ih

theorem isRunning_of_step (h : Step w label w') (hruns : w'.task.isRunning = true) :
    w.task.isRunning = true := by
  cases h with
  | asked => exact hruns
  | stateCommand h | sendCommand h => exact h
  | poll hpoll => exact hpoll.isRunning
  | sent htask | failed htask | publish htask => rw [htask]; rfl

/-- Where every join that has to be sent comes in time, all joiners and leavers are settled once. -/
theorem settledOnce_of_run {listener : Listener} {before : Socket.State} {seen : Nat}
    (h : Run machine (fun w label => joinsInTime w label = true) (start listener before seen) ls w) :
    SettledOnce (machine.steps (start listener before seen) ls) w := by
  refine h.history (I := SettledOnce) ?_ ?_
  · intro _
    cases before <;> exact .refl _
  intro ls past w label w' hrun ih hok hs hruns
  have hstep := step_cases hs
  have hreceived := ih (isRunning_of_step hstep hruns)
  rw [receivedTxs, List.flatMap_append, List.flatMap_singleton]
  exact (hreceived.append_right _).trans (hstep.settled (joinsOnce_of_run hrun) hok hruns).symm

end PhoenixChannels.Channel
