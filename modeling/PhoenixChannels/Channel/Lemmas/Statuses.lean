import PhoenixChannels.Channel.Lemmas.Replies
import PhoenixChannels.Channel.Machine
import PhoenixChannels.Statuses.Lemmas.Observers

/-!
# The statuses of a channel listener

Which status comes after which, and where the rejection of a join is published among them. A listener
that is joining does not look at the connectivity, so that it never goes back to waiting for the socket.
-/

namespace PhoenixChannels.Channel

open Statuses (Writer)

/-! ## The graph -/

/-- The statuses that a status changes to. -/
def Status.changesTo (status next : Status) : Bool :=
  match status with
  | .waitingForSocketToConnect =>
      match next with
      | .waitingToJoin | .waitingToRejoin _ | .shuttingDown => true
      | _ => false
  | .waitingToJoin | .left =>
      match next with
      | .waitingForSocketToConnect | .joining | .waitingToRejoin _ | .shuttingDown => true
      | _ => false
  | .joining =>
      match next with
      | .joined | .waitingToRejoin _ | .leaving | .shuttingDown => true
      | _ => false
  | .waitingToRejoin _ =>
      match next with
      | .waitingForSocketToConnect | .joining | .left | .shuttingDown => true
      | _ => false
  | .joined =>
      match next with
      | .waitingForSocketToConnect | .waitingToRejoin _ | .leaving | .left | .shuttingDown => true
      | _ => false
  | .leaving =>
      match next with
      | .waitingForSocketToConnect | .joining | .waitingToRejoin _ | .left | .shuttingDown => true
      | _ => false
  | .shuttingDown => next = .shutDown
  | .shutDown => false

/-- What comes after what in the broadcast: a rejection stands between `Joining` and
`WaitingToRejoin`. -/
def published : Except Payload Status → Except Payload Status → Prop
  | .ok status, .ok next => status.changesTo next = true
  | .ok status, .error _ => status = .joining
  | .error _, .ok next => ∃ deadline, next = .waitingToRejoin deadline
  | .error _, .error _ => False

def Effect.statusError? : Effect → Option Payload
  | statusError payload => some payload
  | _ => none

/-- The rejections that were published. -/
def World.statusErrors (w : World) : List Payload := w.effects.filterMap Effect.statusError?

/-- The steps in which the listener runs. -/
def Label.own : Label → Bool
  | .poll _ | .sent _ | .failed _ | .publish => true
  | .asked _ _ _ | .stateCommand _ | .sendCommand _ => false

/-- The listener as the writer of its `ObservableStatus`. -/
def writer : Writer World Label Status Payload where
  machine := machine
  status := World.status
  errors := World.statusErrors
  own := Label.own

variable {env : Surroundings} {w w' : World} {state state' : State} {branch : Branch} {flow : Flow}
variable {read : Option TxId} {label : Label} {status : Status} {txs : List TxId} {now : Instant}

/-! ## Handlers -/

/-- The status is kept, or changes along the graph. -/
def Status.Stays (status next : Status) : Prop := next = status ∨ status.changesTo next = true

@[simp] theorem statusErrors_joined {result : Except JoinError Payload} :
    (sendJoinPayloadToChannelTxs txs result).filterMap Effect.statusError? = [] := by
  induction txs with
  | nil => rfl
  | cons tx txs ih => exact ih

@[simp] theorem statusErrors_left {result : Except LeaveError Unit} :
    (sendToChannelTxs txs result).filterMap Effect.statusError? = [] := by
  induction txs with
  | nil => rfl
  | cons tx txs ih => exact ih

/-- The state in which a call into the socket began. -/
def SocketCall.before : SocketCall → State
  | join state _ _ _ => state
  | leaveJoining joining _ => .joining joining
  | leaveJoined joined _ | cast joined _ _ | call joined _ _ => .joined joined

/-- What a handler that ran under `status` comes to. -/
inductive FollowsFrom (status : Status) : Flow → Prop
  | next {next effects} : status.Stays next.status → effects.filterMap Effect.statusError? = [] →
      FollowsFrom status (.next next effects)
  | rejected {sleep rejoin effects payload} : status = .joining →
      effects.filterMap Effect.statusError? = [payload] →
      FollowsFrom status (.next (.waitingToRejoin sleep rejoin) effects)
  | call {call} : call.before.status = status → (∀ fresh, status.Stays (call.sent fresh).1.status) →
      FollowsFrom status (.call call)
  | exit {error effects} : effects.filterMap Effect.statusError? = [] →
      FollowsFrom status (.exit error effects)
  | panic {reason} : FollowsFrom status (.panic reason)

theorem followsFrom_shutdown (h : .shutdown ∈ state.branches) :
    FollowsFrom state.status (.next (shutdown state).1 (shutdown state).2) := by
  cases state with
  | shuttingDown | shutDown => simp [State.branches] at h
  | _ => exact .next (.inr rfl) (by simp [shutdown])

theorem followsFrom_connectivityChanged {connectivity : Connectivity}
    (h : .connectivity ∈ state.branches) :
    FollowsFrom state.status (.next (connectivityChanged now state connectivity).1
      (connectivityChanged now state connectivity).2) := by
  cases state with
  | joining | shuttingDown | shutDown => simp [State.branches] at h
  | waitingForSocketToConnect rejoin =>
      cases connectivity with
      | connected => cases rejoin <;> exact .next (.inr rfl) rfl
      | disconnected reason =>
          cases reason <;> first | exact .next (.inl rfl) rfl | exact .next (.inr rfl) rfl
  | _ =>
      cases connectivity with
      | connected =>
          first
            | exact .next (.inl rfl) rfl
            | exact .next (.inr rfl) rfl
            | exact .next (.inr rfl) (by simp [connectivityChanged])
      | disconnected reason =>
          cases reason <;> exact .next (.inr rfl) (by simp [connectivityChanged])

theorem followsFrom_joinedResultReceived {joining : Joining}
    {result : Except Socket.JoinError JoinedChannelReceivers} :
    FollowsFrom .joining (.next (joinedResultReceived now joining result).1
      (joinedResultReceived now joining result).2) := by
  cases result with
  | ok receivers => exact .next (.inr rfl) (by simp [joinedResultReceived])
  | error e =>
      cases e with
      | rejected payload =>
          have herrors : ((joinedResultReceived now joining (.error (.rejected payload))).2.filterMap
              Effect.statusError?) = [payload] := by
            simp [joinedResultReceived, Effect.statusError?]
          exact .rejected rfl herrors
      | _ => exact .next (.inr rfl) (by simp [joinedResultReceived])

theorem followsFrom_socketShutdown {error : Socket.ShutdownError} :
    FollowsFrom state.status (socketShutdown state error) := by
  cases state <;> exact .exit (by simp)

theorem followsFrom_join {createdAt : Instant} {timeout : Duration} {tx : TxId} :
    FollowsFrom state.status (join now state createdAt timeout tx) := by
  have joins : state.status.changesTo .joining = true →
      (∀ deadline, state.status.changesTo (.waitingToRejoin deadline) = true) →
      FollowsFrom state.status (socketJoinIfNotTimedOut now state createdAt timeout tx) := by
    intro hjoins hwaits
    unfold socketJoinIfNotTimedOut
    dsimp only
    split
    · exact .call rfl fun _ => .inr hjoins
    · exact .next (.inr (hwaits _)) rfl
  cases state with
  | waitingForSocketToConnect rejoin => exact .panic
  | waitingToJoin | leaving | left => exact joins rfl fun _ => rfl
  | _ => exact .next (.inl rfl) rfl

theorem followsFrom_leave {tx : TxId} : FollowsFrom state.status (leave state tx) := by
  cases state with
  | joining | joined => exact .call rfl fun _ => .inr rfl
  | waitingToRejoin => exact .next (.inr rfl) rfl
  | _ => exact .next (.inl rfl) rfl

theorem BranchReady.followsFrom (h : BranchReady env w state branch w' flow)
    (hbranch : branch ∈ state.branches) : FollowsFrom state.status flow := by
  cases h with
  | shutdown => exact followsFrom_shutdown hbranch
  | connectivity => exact followsFrom_connectivityChanged hbranch
  | socketJoined => exact followsFrom_joinedResultReceived
  | socketJoinedClosed => exact followsFrom_socketShutdown
  | left => exact .next (.inr rfl) rfl
  | socketLeft => exact .next (.inr rfl) (by simp [Leaving.left])
  | sleep => exact .call rfl fun _ => .inr rfl
  | @stateCommand _ command _ _ =>
      cases command with
      | join => exact followsFrom_join
      | leave => exact followsFrom_leave
  | @sendCommand _ command _ _ => cases command <;> exact .call rfl fun _ => .inl rfl
  | @push joined push _ _ =>
      unfold pushReceived
      dsimp only
      split
      · exact .next (.inr rfl) rfl
      · exact .next (.inl rfl) rfl
  | broadcast => exact .next (.inl rfl) rfl

theorem followsFrom_sent {call : SocketCall} {fresh : TxId}
    (h : status.Stays (call.sent fresh).1.status) :
    FollowsFrom status (.next (call.sent fresh).1 (call.sent fresh).2) := by
  refine .next h ?_
  cases call with
  | join state => cases state <;> simp [SocketCall.sent]
  | _ => simp [SocketCall.sent]

theorem followsFrom_failed {call : SocketCall} {error : Socket.ShutdownError} :
    FollowsFrom call.before.status (call.failed error) := by
  cases call with
  | join => exact followsFrom_socketShutdown
  | leaveJoining | leaveJoined => exact .next (.inl rfl) rfl
  | cast | call => exact .next (.inr rfl) rfl

/-! ## Steps -/

/-- What the published status has to do with where the task is. -/
inductive Agrees : Status → Task → Prop
  | selecting {old current rest disabled} : old = current.status →
      (∀ branch ∈ rest, branch ∈ current.branches) → .shutdown ∉ disabled →
      Agrees old (.selecting current rest disabled)
  | calling {old call} : call.before.status = old →
      (∀ fresh, old.Stays (call.sent fresh).1.status) → Agrees old (.calling call)
  | publishing {old next} : old.Stays next.status → Agrees old (.publishing next)
  | exited {old result} : Agrees old (.exited result)
  | panicked {old reason} : Agrees old (.panicked reason)

/-- What a step does to the status: nothing, it publishes a rejection, or it sets the status. -/
inductive StatusStep (w w' : World) : Prop
  | quiet : w'.statusErrors = w.statusErrors → w'.status = w.status →
      (∀ state, w.task = .publishing state → w'.task = .publishing state) → StatusStep w w'
  | rejected {payload sleep rejoin} : w'.statusErrors = w.statusErrors ++ [payload] →
      w'.status = w.status → w.status = .joining → (∀ state, w.task ≠ .publishing state) →
      w'.task = .publishing (.waitingToRejoin sleep rejoin) → StatusStep w w'
  | set : w'.statusErrors = w.statusErrors → w.status.Stays w'.status →
      (∀ sleep rejoin, w.task = .publishing (.waitingToRejoin sleep rejoin) →
        w'.status = .waitingToRejoin sleep) → StatusStep w w'

theorem StatusStep.of_eq {w₁ : World} (h : StatusStep w₁ w') (hstatus : w₁.status = w.status)
    (htask : w₁.task = w.task) (herrors : w₁.statusErrors = w.statusErrors) : StatusStep w w' := by
  cases h with
  | quiet h₁ h₂ h₃ => exact .quiet (h₁.trans herrors) (h₂.trans hstatus) (htask ▸ h₃)
  | rejected h₁ h₂ h₃ h₄ h₅ =>
      exact .rejected (herrors ▸ h₁) (h₂.trans hstatus) (hstatus ▸ h₃) (htask ▸ h₄) h₅
  | set h₁ h₂ h₃ => exact .set (h₁.trans herrors) (hstatus ▸ h₂) (htask ▸ h₃)

theorem FollowsFrom.statusStep (h : FollowsFrom w.status flow)
    (htask : ∀ state, w.task ≠ .publishing state) :
    StatusStep w (w.proceed flow) ∧ Agrees (w.proceed flow).status (w.proceed flow).task := by
  have herrors : (w.proceed flow).statusErrors =
      w.statusErrors ++ flow.effects.filterMap Effect.statusError? := by
    simp [World.statusErrors, proceed_effects_eq]
  have quiet : flow.effects.filterMap Effect.statusError? = [] →
      (w.proceed flow).status = w.status → StatusStep w (w.proceed flow) := by
    intro hnone hstatus
    rw [hnone, List.append_nil] at herrors
    exact .quiet herrors hstatus fun state hstate => absurd hstate (htask state)
  cases h with
  | next hstays hnone => exact ⟨quiet hnone rfl, .publishing hstays⟩
  | rejected hjoining hsome =>
      refine ⟨.rejected (hsome ▸ herrors) rfl hjoining htask rfl, .publishing (.inr ?_)⟩
      simp [World.proceed, hjoining, State.status, Status.changesTo]
  | call hbefore hstays => exact ⟨quiet rfl rfl, .calling hbefore hstays⟩
  | exit hnone => exact ⟨quiet hnone rfl, .exited⟩
  | panic => exact ⟨quiet rfl rfl, .panicked⟩

theorem BranchReady.keepsStatus (h : BranchReady env w state branch w' flow) :
    w'.status = w.status ∧ w'.task = w.task ∧ w'.statusErrors = w.statusErrors := by
  cases h <;> exact ⟨rfl, rfl, rfl⟩

theorem branches_shutdown (h : .shutdown ∉ state.branches) :
    state = .shuttingDown ∨ state = .shutDown := by
  cases state <;> simp_all [State.branches]

theorem PollStep.statusStep (h : PollStep env w w' read) (hw : Agrees w.status w.task) :
    StatusStep w w' ∧ Agrees w'.status w'.task := by
  have unpublished : ∀ {state rest disabled}, w.task = .selecting state rest disabled →
      ∀ state', w.task ≠ .publishing state' := by
    intro state rest disabled htask state' h
    rw [htask] at h
    cases h
  cases h with
  | @breakOk state disabled htask hall =>
      have hpublishing := unpublished htask
      rw [htask] at hw
      cases hw with
      | selecting hstatus hrest hshutdown =>
          have hended : state = .shuttingDown ∨ state = .shutDown := by
            refine branches_shutdown fun hmem => hshutdown ?_
            simpa using List.all_eq_true.mp hall _ hmem
          refine ⟨.set (by simp [World.statusErrors, World.breakOk, World.finish]) ?_
            fun _ _ h => absurd h (hpublishing _), .exited⟩
          rcases hended with rfl | rfl
          · exact .inr (by rw [hstatus]; rfl)
          · exact .inl hstatus.symm
  | round htask =>
      have hpublishing := unpublished htask
      rw [htask] at hw
      cases hw with
      | selecting hstatus hrest hshutdown =>
          refine ⟨.quiet rfl rfl fun _ h => absurd h (hpublishing _), .selecting hstatus ?_ hshutdown⟩
          intro branch hmem
          exact (List.mem_filter.mp hmem).1
  | pending htask hpoll =>
      have hpublishing := unpublished htask
      rw [htask] at hw
      cases hw with
      | selecting hstatus hrest hshutdown =>
          refine ⟨.quiet rfl rfl fun _ h => absurd h (hpublishing _), .selecting hstatus ?_ hshutdown⟩
          exact fun branch hmem => hrest branch (List.mem_cons_of_mem _ hmem)
  | @mismatch state branch rest disabled w₁ state₁ htask hmismatch hpoll =>
      have hpublishing := unpublished htask
      rw [htask] at hw
      cases hw with
      | selecting hstatus hrest hshutdown =>
          have hbranch : .shutdown ≠ branch := by
            rintro rfl
            simp only [World.pollBranch] at hpoll
            split at hpoll <;> cases hpoll
          have hkept : w₁.status = w.status ∧ w₁.statusErrors = w.statusErrors ∧
              state₁.status = state.status ∧ state₁.branches = state.branches := by
            cases hmismatch <;> exact ⟨rfl, rfl, rfl, rfl⟩
          obtain ⟨hstatus₁, herrors, hsame, hbranches⟩ := hkept
          refine ⟨.quiet herrors hstatus₁ fun _ h => absurd h (hpublishing _), .selecting ?_ ?_ ?_⟩
          · rw [hsame, ← hstatus]
            exact hstatus₁
          · rw [hbranches]
            exact fun branch hmem => hrest branch (List.mem_cons_of_mem _ hmem)
          · simp [hbranch, hshutdown]
  | @ready state branch rest disabled w₁ flow htask hready =>
      have hpublishing := unpublished htask
      obtain ⟨hstatus₁, htask₁, herrors₁⟩ := hready.keepsStatus
      rw [htask] at hw
      cases hw with
      | selecting hstatus hrest hshutdown =>
          have hfollows : FollowsFrom w₁.status flow := by
            rw [hstatus₁, hstatus]
            exact hready.followsFrom (hrest _ List.mem_cons_self)
          obtain ⟨hstep, hagrees⟩ := hfollows.statusStep (htask₁ ▸ hpublishing)
          exact ⟨hstep.of_eq hstatus₁ htask₁ herrors₁, hagrees⟩

theorem Step.statusStep (h : Step w label w') (hw : Agrees w.status w.task) :
    StatusStep w w' ∧ Agrees w'.status w'.task := by
  cases h with
  | asked | stateCommand | sendCommand => exact ⟨.quiet rfl rfl fun _ h => h, hw⟩
  | poll hpoll => exact hpoll.statusStep hw
  | @sent call fresh htask =>
      have hpublishing : ∀ state, w.task ≠ .publishing state := by simp [htask]
      rw [htask] at hw
      cases hw with
      | calling hbefore hstays => exact (followsFrom_sent (hstays fresh)).statusStep hpublishing
  | @failed call shutdownError htask =>
      have hpublishing : ∀ state, w.task ≠ .publishing state := by simp [htask]
      rw [htask] at hw
      cases hw with
      | calling hbefore hstays =>
          cases shutdownError with
          | ok error =>
              have hfollows : FollowsFrom w.status (call.failed error) := hbefore ▸ followsFrom_failed
              exact hfollows.statusStep hpublishing
          | error reason => exact FollowsFrom.panic.statusStep hpublishing
  | @publish state htask =>
      rw [htask] at hw
      cases hw with
      | publishing hstays =>
          refine ⟨.set rfl hstays ?_, .selecting rfl (fun _ h => h) List.not_mem_nil⟩
          intro sleep rejoin h
          rw [htask] at h
          cases h
          rfl

/-! ## The messages -/

/-- What the listener is about to do after the last message. -/
structure Expects (last : Option (Except Payload Status)) (w : World) : Prop where
  status : ∀ ⦃status⦄, last = some (.ok status) → w.status = status
  rejected : ∀ ⦃payload⦄, last = some (.error payload) → w.status = .joining ∧
    ∃ sleep rejoin, w.task = .publishing (.waitingToRejoin sleep rejoin)
  agrees : Agrees w.status w.task

theorem Expects.step {last : Option (Except Payload Status)} (h : Expects last w)
    (hstep : StatusStep w w') (hagrees : Agrees w'.status w'.task) :
    writer.Sends published Expects last w w' := by
  cases hstep with
  | quiet herrors hstatus hpublishing =>
      refine .nothing (Writer.messages_eq_nil herrors hstatus) ⟨?_, ?_, hagrees⟩
      · exact fun _ hlast => hstatus.trans (h.status hlast)
      · intro payload hlast
        obtain ⟨hjoining, sleep, rejoin, htask⟩ := h.rejected hlast
        exact ⟨hstatus.trans hjoining, sleep, rejoin, hpublishing _ htask⟩
  | @rejected payload sleep rejoin herrors hstatus hjoining hpublishing htask =>
      have hmessages : writer.messages w w' = [payload].map .error :=
        Writer.messages_of_errors herrors hstatus
      refine .message hmessages ?_ ⟨nofun, ?_, hagrees⟩
      · rintro (payload' | status) hlast
        · obtain ⟨_, _, _, htask'⟩ := h.rejected hlast
          exact absurd htask' (hpublishing _)
        · exact (h.status hlast).symm.trans hjoining
      · exact fun _ _ => ⟨hstatus.trans hjoining, sleep, rejoin, htask⟩
  | set herrors hstays hwaits =>
      have hmessages := Writer.messages_of_status (W := writer) herrors
      have waiting : ∀ payload, last = some (.error payload) →
          w.status = .joining ∧ ∃ deadline, w'.status = .waitingToRejoin deadline := by
        intro payload hlast
        obtain ⟨hjoining, sleep, rejoin, htask⟩ := h.rejected hlast
        exact ⟨hjoining, sleep, hwaits sleep rejoin htask⟩
      by_cases hsame : w.status = w'.status
      · refine .nothing (hmessages.trans (if_pos hsame)) ⟨?_, ?_, hagrees⟩
        · exact fun _ hlast => hsame.symm.trans (h.status hlast)
        · intro payload hlast
          obtain ⟨hjoining, deadline, hwaiting⟩ := waiting payload hlast
          rw [hsame, hwaiting] at hjoining
          cases hjoining
      · refine .message (hmessages.trans (if_neg hsame)) ?_ ⟨?_, nofun, hagrees⟩
        · rintro (payload | status) hlast
          · exact (waiting payload hlast).2
          · rcases hstays with heq | hchanges
            · exact absurd heq.symm hsame
            · exact h.status hlast ▸ hchanges
        · intro status hlast
          cases hlast
          rfl

theorem links : writer.Links published Expects :=
  .of_sends fun _ _ _ _ h hs =>
    have hstep := (step_cases hs).statusStep h.agrees
    h.step hstep.1 hstep.2

theorem frames : writer.Frames where
  status := by
    intro w label w' hown hs
    have h := step_cases hs
    cases h <;> first | rfl | cases hown
  errors := by
    intro w label w' hown hs
    have h := step_cases hs
    cases h <;> first | rfl | cases hown

end PhoenixChannels.Channel
