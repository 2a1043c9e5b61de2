import PhoenixChannels.Socket.Lemmas.Iterations
import PhoenixChannels.Statuses.Lemmas.Observers

/-!
# The statuses of the socket listener

Which status comes after which, and where the errors of failed connects are published among them.
-/

namespace PhoenixChannels.Socket

open Statuses (Writer)

/-! ## The graph -/

/-- The statuses that a status changes to. Where nobody can reach the listener any more it ends without
`ShuttingDown`. -/
def Status.changesTo (status next : Status) : Bool :=
  match status with
  | .neverConnected | .disconnected =>
      match next with
      | .connected | .waitingToReconnect _ | .shuttingDown | .shutDown => true
      | _ => false
  | .connected =>
      match next with
      | .waitingToReconnect _ | .disconnected | .shuttingDown => true
      | _ => false
  | .waitingToReconnect _ =>
      match next with
      | .connected | .waitingToReconnect _ | .shuttingDown => true
      | _ => false
  | .shuttingDown => next = .shutDown
  | .shutDown => false

/-- The statuses from which the listener connects. -/
def Status.connects : Status → Bool
  | .neverConnected | .waitingToReconnect _ | .disconnected => true
  | .connected | .shuttingDown | .shutDown => false

/-- What comes after what in the broadcast: an error comes from a failed connect, after which the
listener waits to reconnect. -/
def published : Except WebSocketError Status → Except WebSocketError Status → Prop
  | .ok status, .ok next => status.changesTo next = true
  | .ok status, .error _ => status.connects = true
  | .error _, .ok next => (Status.waitingToReconnect 0).changesTo next = true
  | .error _, .error _ => True

def Effect.statusError? : Effect → Option WebSocketError
  | statusError error => some error
  | _ => none

/-- The errors that were published. -/
def World.statusErrors (w : World) : List WebSocketError := w.effects.filterMap Effect.statusError?

/-- The steps in which the listener runs. -/
def Label.own : Label → Bool
  | .select _ | .pushed | .publish => true
  | .elapse _ => false

/-- The listener as the writer of its `ObservableStatus`. -/
def writer (strategy : Option (Nat → Duration)) : Writer World Label Status WebSocketError where
  machine := machine strategy
  status := World.status
  errors := World.statusErrors
  own := Label.own

variable {strategy : Option (Nat → Duration)} {now : Instant} {fresh : TxId} {c : Connected}
variable {state : State} {input : Input} {iteration : Iteration} {effects : List Effect}
variable {w w' : World} {label : Label} {old : Status}

/-- The status is kept, or changes along the graph. -/
def Status.Stays (status next : Status) : Prop := next = status ∨ status.changesTo next = true

/-! ## Iterations -/

/-- What an iteration that began under `status` comes to. -/
inductive FollowsFrom (status : Status) : Iteration → Prop
  | next {next effects} : status.Stays next.status → next ≠ .shutDown →
      (∀ e ∈ effects, e.statusError? = none) → FollowsFrom status (.next next effects)
  | failed {sleep reconnect effects error} : status.connects = true →
      effects.filterMap Effect.statusError? = [error] →
      FollowsFrom status (.next (.waitingToReconnect sleep reconnect) effects)
  | push {connected pushTx push} : status = .connected →
      FollowsFrom status (.push connected pushTx push)
  | stop : status.changesTo .shutDown = true → FollowsFrom status (.exit (.ok ()))
  | exit {error} : FollowsFrom status (.exit (.error error))
  | panic : FollowsFrom status .panic

theorem statusError?_sendDisconnected {disconnected : Disconnected} :
    ∀ e ∈ (sendDisconnected c disconnected).2, e.statusError? = none := by
  intro e he
  simp only [sendDisconnected, List.mem_append, List.mem_singleton, List.mem_map] at he
  rcases he with (rfl | ⟨_, _, rfl⟩) | ⟨_, _, rfl⟩ <;> rfl

/-- The connection is kept. -/
theorem FollowsFrom.kept {c' : Connected} (h : ∀ e ∈ effects, Effect.statusError? e = none) :
    FollowsFrom .connected (.next (.connected c') effects) := .next (.inl rfl) (by simp) h

/-- The connection is lost, with some effects before and after those of `send_disconnected`. -/
theorem FollowsFrom.lost {before after : List Effect}
    (h : ∀ e ∈ before ++ after, Effect.statusError? e = none) :
    FollowsFrom .connected (.next (waitToReconnectConnected now c).1
      (before ++ (waitToReconnectConnected now c).2 ++ after)) := by
  refine .next (.inr rfl) (by simp [waitToReconnectConnected, Reconnect.wait]) ?_
  intro e he
  simp only [List.mem_append] at he h
  rcases he with (he | he) | he
  · exact h e (.inl he)
  · exact statusError?_sendDisconnected e he
  · exact h e (.inr he)

theorem FollowsFrom.waits : FollowsFrom .connected (.next (waitToReconnectConnected now c).1
    (waitToReconnectConnected now c).2) := by
  have h : FollowsFrom .connected (.next (waitToReconnectConnected now c).1
      ([] ++ (waitToReconnectConnected now c).2 ++ [])) := .lost (by simp)
  simpa using h

theorem statusError?_handleReply {reply : Reply} :
    ∀ e ∈ (c.handleReply reply fresh).2, e.statusError? = none := by
  unfold Connected.handleReply Connected.finishJoin
  intro e he
  dsimp only at he
  split at he
  · split at he <;> cases List.mem_singleton.mp he <;> rfl
  · split at he
    · cases List.mem_singleton.mp he
      rfl
    · cases he

theorem statusError?_handleBroadcast {b : Broadcast} :
    ∀ e ∈ (c.handleBroadcast b).2, e.statusError? = none := by
  unfold Connected.handleBroadcast
  split <;> simp [Effect.statusError?]

theorem statusError?_joinTimedOut {key : JoinKey} :
    ∀ e ∈ (c.joinTimedOut key).2, e.statusError? = none := by
  unfold Connected.joinTimedOut
  split <;> simp [Effect.statusError?]

theorem followsFrom_handleMessage {message : Message} :
    FollowsFrom .connected (handleMessage now c message fresh) := by
  cases message with
  | control control =>
      simp only [handleMessage]
      split <;> exact .kept (by simp)
  | reply reply =>
      simp only [handleMessage]
      split
      · exact .kept (by simp)
      · exact .kept statusError?_handleReply
  | push push =>
      simp only [handleMessage]
      split
      · exact .push rfl
      · exact .kept (by simp)
  | broadcast b => exact .kept statusError?_handleBroadcast

theorem followsFrom_handleSocketMessage {message : SocketMessage}
    {sent : Except WebSocketError Unit} :
    FollowsFrom .connected (handleSocketMessage now c message sent fresh) := by
  have decoded : ∀ decoded, FollowsFrom .connected (handleDecoded now c decoded fresh) := by
    intro decoded
    cases decoded with
    | ok message => exact followsFrom_handleMessage
    | error => exact .kept (by simp)
  cases message with
  | ping data =>
      cases sent with
      | ok => exact .kept (by simp [Effect.statusError?])
      | error => exact .waits
  | pong => exact .kept (by simp)
  | close =>
      have h : FollowsFrom .connected (.next (waitToReconnectConnected now c).1
          ([.close] ++ (waitToReconnectConnected now c).2 ++ [])) :=
        .lost (by simp [Effect.statusError?])
      rw [List.append_nil] at h
      exact h
  | text | binary =>
      simp only [handleSocketMessage]
      split
      · exact decoded _
      · exact .panic
  | frame => exact .panic

theorem followsFrom_handleSocketError {error : WebSocketError} :
    FollowsFrom .connected (handleSocketError now c error) := by
  cases error with
  | capacity | writeBufferFull | utf8 => exact .kept (by simp)
  | attackAttempt | url | http | httpFormat => exact .exit
  | _ => exact .waits

/-- Where a message cannot be encoded the handler panics. -/
theorem followsFrom_encoded {message : Message} {handler : Panics (State × List Effect)}
    (h : FollowsFrom .connected (.ofPanics handler)) :
    FollowsFrom .connected (.ofPanics do
      let _data ← unwrap (← message.encode)
      handler) := by
  simp only [Option.bind_eq_bind]
  cases message.encode with
  | none => exact .panic
  | some encoded =>
      cases encoded with
      | error => exact .panic
      | ok data => exact h

theorem followsFrom_updateChannelState {command : ChannelStateCommand} {uuid : Uuid}
    {sent : Except WebSocketError Unit} :
    FollowsFrom .connected (.ofPanics (updateChannelState now c command uuid sent)) := by
  cases command with
  | join join =>
      refine followsFrom_encoded ?_
      cases sent with
      | ok => exact .kept (by simp [Effect.statusError?])
      | error => exact .waits
  | leave l =>
      refine followsFrom_encoded ?_
      cases sent with
      | ok =>
          refine .kept fun e he => ?_
          simp only [List.mem_append, List.mem_singleton, Option.mem_toList,
            Option.map_eq_some_iff] at he
          rcases he with (rfl | ⟨_, _, rfl⟩) | rfl <;> rfl
      | error error =>
          have h : FollowsFrom .connected (.next (waitToReconnectConnected now c).1
              ([] ++ (waitToReconnectConnected now c).2
                ++ [.leftTx l.leftTx (.error (.webSocketError error))])) :=
            .lost (by simp [Effect.statusError?])
          exact h

theorem followsFrom_send {command : ChannelSendCommand} {uuid : Uuid}
    {sent : Except WebSocketError Unit} :
    FollowsFrom .connected (.ofPanics (send now c command uuid sent)) := by
  cases command with
  | call k =>
      refine followsFrom_encoded ?_
      cases sent with
      | ok => exact .kept (by simp [Effect.statusError?])
      | error error =>
          have h : FollowsFrom .connected (.next (waitToReconnectConnected now c).1
              ([.replyTx k.replyTx (.error (.webSocketError error))]
                ++ (waitToReconnectConnected now c).2 ++ [])) :=
            .lost (by simp [Effect.statusError?])
          rw [List.append_nil] at h
          exact h
  | cast k =>
      refine followsFrom_encoded ?_
      cases sent with
      | ok => exact .kept (by simp [Effect.statusError?])
      | error => exact .waits

theorem followsFrom_heartbeat {uuid : Uuid} {sent : Except WebSocketError Unit} :
    FollowsFrom .connected (.ofPanics (heartbeat now c uuid sent)) := by
  unfold heartbeat
  split
  · exact .kept (by simp)
  · refine followsFrom_encoded ?_
    cases sent with
    | ok => exact .kept (by simp [Effect.statusError?])
    | error => exact .waits

theorem waitAfterFailure_eq (strategy : Option (Nat → Duration)) (now : Instant) (r : Reconnect) :
    ∃ sleep next, waitAfterFailure strategy now r = .waitingToReconnect sleep next := by
  cases strategy <;> exact ⟨_, _, rfl⟩

theorem followsFrom_updateState {command : StateCommand} {outcome : ConnectOutcome}
    (h : state.serves = true) :
    FollowsFrom state.status (.ofPanics (updateState strategy now state command outcome)) := by
  have fresh : ∀ connect, state.status.connects = true →
      (∀ sleep, state.status.changesTo (.waitingToReconnect sleep) = true) →
      state.status.changesTo .connected = true →
      FollowsFrom state.status
        (.ofPanics (Socket.connect strategy now .neverConnected connect outcome)) := by
    intro connect hconnects hwaits hconnected
    obtain ⟨sleep, next, hwait⟩ := waitAfterFailure_eq strategy now connect.reconnect
    cases outcome with
    | connected => exact .next (.inr hconnected) (by simp) (by simp [Effect.statusError?])
    | error e =>
        simp only [Socket.connect, socketConnect, Iteration.ofPanics, hwait]
        exact .failed hconnects rfl
    | timeout =>
        simp only [Socket.connect, socketConnect, Iteration.ofPanics, hwait]
        exact .next (.inr (hwaits _)) (by simp) (by simp [Effect.statusError?])
  cases command with
  | connect connect =>
      cases state with
      | neverConnected => exact fresh connect rfl (fun _ => rfl) rfl
      | disconnected => exact fresh connect rfl (fun _ => rfl) rfl
      | connected | waitingToReconnect =>
          exact .next (.inl rfl) (by simp) (by simp [Effect.statusError?])
      | shuttingDown | shutDown => cases h
  | disconnect tx =>
      cases state with
      | connected c =>
          refine .next (.inr rfl) (by simp) ?_
          intro e he
          simp only [List.mem_append, List.mem_singleton] at he
          rcases he with (rfl | he) | rfl
          · rfl
          · exact statusError?_sendDisconnected e he
          · rfl
      | shuttingDown | shutDown => cases h
      | _ => exact .next (.inl rfl) (by simp) (by simp [Effect.statusError?])
  | shutdown =>
      cases state with
      | connected c =>
          refine .next (.inr rfl) (by simp) ?_
          intro e he
          simp only [List.mem_append, List.mem_singleton] at he
          rcases he with rfl | he
          · rfl
          · exact statusError?_sendDisconnected e he
      | shuttingDown | shutDown => cases h
      | _ => exact .next (.inr rfl) (by simp) (by simp)

theorem followsFrom_reconnect {sleep : Instant} {r : Reconnect} {outcome : ConnectOutcome} :
    FollowsFrom (.waitingToReconnect sleep)
      (.ofPanics (some (Socket.reconnect strategy now r outcome))) := by
  obtain ⟨deadline, next, hwait⟩ := waitAfterFailure_eq strategy now r
  cases outcome with
  | connected => exact .next (.inr rfl) (by simp) (by simp [Effect.statusError?])
  | error e =>
      simp only [Socket.reconnect, socketConnect, Iteration.ofPanics, hwait]
      exact .failed rfl rfl
  | timeout =>
      simp only [Socket.reconnect, socketConnect, Iteration.ofPanics, hwait]
      exact .next (.inr rfl) (by simp) (by simp)

/-- Every iteration goes along the graph, and errors are published by failed connects only. -/
theorem followsFrom_select (h : select strategy now fresh state input = some iteration)
    (hstate : state ≠ .shutDown) : FollowsFrom state.status iteration := by
  cases input with
  | socketResult result sent =>
      cases state with
      | connected c =>
          cases h
          cases result with
          | ok message => exact followsFrom_handleSocketMessage
          | error e => exact followsFrom_handleSocketError
      | _ => cases h
  | channelSpawn spawn uuid delivered =>
      simp only [select] at h
      split at h
      · cases h
        exact .next (.inl rfl) hstate (by simp [Effect.statusError?])
      · cases h
  | stateCommand command outcome =>
      simp only [select, Bool.and_eq_true] at h
      split at h
      · cases h
        rename_i hserves
        exact followsFrom_updateState hserves.1
      · cases h
  | channelStateCommand command uuid sent =>
      cases state with
      | connected c =>
          cases h
          exact followsFrom_updateChannelState
      | _ => cases h
  | channelSendCommand command uuid sent =>
      cases state with
      | connected c =>
          cases h
          exact followsFrom_send
      | _ => cases h
  | joinTimeout index =>
      cases state with
      | connected c =>
          simp only [select] at h
          split at h
          · split at h <;> cases h
            exact .kept statusError?_joinTimedOut
          · cases h
      | _ => cases h
  | heartbeat uuid sent =>
      cases state with
      | connected c =>
          simp only [select] at h
          split at h <;> cases h
          exact followsFrom_heartbeat
      | _ => cases h
  | sleepElapsed outcome =>
      cases state with
      | waitingToReconnect sleep r =>
          simp only [select] at h
          split at h <;> cases h
          exact followsFrom_reconnect
      | _ => cases h
  | closed =>
      cases state with
      | neverConnected | disconnected =>
          cases h
          exact .stop rfl
      | _ => cases h
  | stop =>
      cases state with
      | shuttingDown =>
          cases h
          exact .stop rfl
      | shutDown => exact absurd rfl hstate
      | _ => cases h

/-! ## Steps -/

/-- What the published status has to do with where the task is. -/
inductive Agrees (old : Status) : Task → Prop
  | selecting {current} : old = current.status → current ≠ .shutDown → Agrees old (.selecting current)
  | pushing {connected pushTx push} : old = .connected → Agrees old (.pushing connected pushTx push)
  | publishing {next} : old.Stays next.status → next ≠ .shutDown → Agrees old (.publishing next)
  | exited {result} : Agrees old (.exited result)
  | panicked : Agrees old .panicked

/-- The listener waits to reconnect, or is about to publish that it does. -/
def World.waits (w : World) : Prop :=
  (∃ deadline, w.status = .waitingToReconnect deadline) ∨
    ∃ sleep reconnect, w.task = .publishing (.waitingToReconnect sleep reconnect)

/-- What a step does to the status: nothing, it publishes the error of a connect, or it sets the
status. -/
inductive StatusStep (w w' : World) : Prop
  | quiet : w'.statusErrors = w.statusErrors → w'.status = w.status → (w.waits → w'.waits) →
      StatusStep w w'
  | failed {error} : w'.statusErrors = w.statusErrors ++ [error] → w'.status = w.status →
      w.status.connects = true → w'.waits → StatusStep w w'
  | set : w'.statusErrors = w.statusErrors → w.status.Stays w'.status →
      (w.waits → (Status.waitingToReconnect 0).changesTo w'.status = true) →
      (w.waits → w.status = w'.status → w'.waits) → StatusStep w w'

theorem record_statusErrors : (w.record state input iteration).statusErrors =
    w.statusErrors ++ (World.outcome iteration).2.filterMap Effect.statusError? := by
  simp [World.statusErrors, World.effects, World.record]

theorem FollowsFrom.statusStep (h : FollowsFrom w.status iteration)
    (htask : w.task = .selecting state) :
    StatusStep w (w.record state input iteration) ∧
      Agrees (w.record state input iteration).status (w.record state input iteration).task := by
  have waits : w.waits → ∃ deadline, w.status = .waitingToReconnect deadline := by
    rintro (hstatus | ⟨_, _, htask'⟩)
    · exact hstatus
    · rw [htask] at htask'
      cases htask'
  have quiet : (World.outcome iteration).2.filterMap Effect.statusError? = [] →
      (w.record state input iteration).status = w.status →
      StatusStep w (w.record state input iteration) := by
    intro hnone hstatus
    refine .quiet ?_ hstatus fun hwaits => .inl (hstatus.symm ▸ waits hwaits)
    rw [record_statusErrors, hnone, List.append_nil]
  cases h with
  | next hstays hne hnone =>
      exact ⟨quiet (List.filterMap_eq_nil_iff.mpr hnone) rfl, .publishing hstays hne⟩
  | @failed sleep reconnect effects error hconnects hsome =>
      have herrors : (w.record state input (.next (.waitingToReconnect sleep reconnect)
          effects)).statusErrors = w.statusErrors ++ [error] := by
        rw [record_statusErrors]
        exact congrArg _ hsome
      refine ⟨.failed herrors rfl hconnects (.inr ⟨_, _, rfl⟩), .publishing (.inr ?_) (by simp)⟩
      change w.status.changesTo (.waitingToReconnect sleep) = true
      cases hstatus : w.status <;> rw [hstatus] at hconnects <;> first | rfl | cases hconnects
  | push hconnected => exact ⟨quiet rfl rfl, .pushing hconnected⟩
  | stop hstops =>
      have never : ¬ w.waits := by
        intro hwaits
        obtain ⟨deadline, hstatus⟩ := waits hwaits
        rw [hstatus] at hstops
        cases hstops
      refine ⟨.set ?_ (.inr hstops) (fun h => absurd h never) fun h => absurd h never, .exited⟩
      rw [record_statusErrors]
      exact List.append_nil _
  | exit => exact ⟨quiet rfl rfl, .exited⟩
  | panic => exact ⟨quiet rfl rfl, .panicked⟩

theorem statusStep_of_step (h : (machine strategy).step w label = some w')
    (hw : Agrees w.status w.task) : StatusStep w w' ∧ Agrees w'.status w'.task := by
  cases label with
  | elapse =>
      cases h
      exact ⟨.quiet rfl rfl id, hw⟩
  | select input =>
      obtain ⟨state, iteration, htask, hselect, rfl⟩ := step_select h
      rw [htask] at hw
      cases hw with
      | selecting hstatus hstate =>
          have hfollows := followsFrom_select hselect hstate
          rw [← hstatus] at hfollows
          exact hfollows.statusStep htask
  | pushed =>
      simp only [machine, World.step] at h
      split at h <;> cases h
      rename_i connected pushTx push htask
      rw [htask] at hw
      cases hw with
      | pushing hconnected =>
          refine ⟨.quiet rfl rfl ?_, .publishing (.inl hconnected.symm) (by simp)⟩
          rintro (⟨deadline, hstatus⟩ | ⟨_, _, htask'⟩)
          · cases hconnected.symm.trans hstatus
          · rw [htask] at htask'
            cases htask'
  | publish =>
      simp only [machine, World.step] at h
      split at h <;> cases h
      rename_i state htask
      rw [htask] at hw
      cases hw with
      | publishing hstays hne =>
          refine ⟨.set rfl hstays ?_ ?_, .selecting rfl hne⟩
          · rintro (⟨deadline, hstatus⟩ | ⟨sleep, reconnect, htask'⟩)
            · rw [hstatus] at hstays
              rcases hstays with heq | hchanges
              · exact heq ▸ rfl
              · exact hchanges
            · rw [htask] at htask'
              cases htask'
              rfl
          · rintro (⟨deadline, hstatus⟩ | ⟨sleep, reconnect, htask'⟩) hsame
            · exact .inl ⟨deadline, hsame.symm.trans hstatus⟩
            · rw [htask] at htask'
              cases htask'
              exact .inl ⟨sleep, rfl⟩

/-! ## The messages -/

/-- What the listener is about to do after the last message. -/
structure Expects (last : Option (Except WebSocketError Status)) (w : World) : Prop where
  status : ∀ ⦃status⦄, last = some (.ok status) → w.status = status
  failed : ∀ ⦃error⦄, last = some (.error error) → w.waits
  agrees : Agrees w.status w.task

theorem Expects.step {last : Option (Except WebSocketError Status)} (h : Expects last w)
    (hstep : StatusStep w w') (hagrees : Agrees w'.status w'.task) :
    (writer strategy).Sends published Expects last w w' := by
  cases hstep with
  | quiet herrors hstatus hwaits =>
      refine .nothing (Writer.messages_eq_nil herrors hstatus) ⟨?_, ?_, hagrees⟩
      · exact fun _ hlast => hstatus.trans (h.status hlast)
      · exact fun _ hlast => hwaits (h.failed hlast)
  | @failed error herrors hstatus hconnects hwaits =>
      have hmessages : (writer strategy).messages w w' = [error].map .error :=
        Writer.messages_of_errors herrors hstatus
      refine .message hmessages ?_ ⟨nofun, fun _ _ => hwaits, hagrees⟩
      rintro (error' | status) hlast
      · trivial
      · exact h.status hlast ▸ hconnects
  | set herrors hstays hchanges hwaits =>
      have hmessages := Writer.messages_of_status (W := writer strategy) herrors
      by_cases hsame : w.status = w'.status
      · refine .nothing (hmessages.trans (if_pos hsame)) ⟨?_, ?_, hagrees⟩
        · exact fun _ hlast => hsame.symm.trans (h.status hlast)
        · exact fun _ hlast => hwaits (h.failed hlast) hsame
      · refine .message (hmessages.trans (if_neg hsame)) ?_ ⟨?_, nofun, hagrees⟩
        · rintro (error | status) hlast
          · exact hchanges (h.failed hlast)
          · rcases hstays with heq | hchange
            · exact absurd heq.symm hsame
            · exact h.status hlast ▸ hchange
        · intro status hlast
          cases hlast
          rfl

theorem links : (writer strategy).Links published Expects :=
  .of_sends fun _ _ _ _ h hs =>
    have hstep := statusStep_of_step hs h.agrees
    h.step hstep.1 hstep.2

theorem frames : (writer strategy).Frames where
  status := by
    intro w label w' hown hs
    cases label with
    | elapse =>
        cases hs
        rfl
    | _ => cases hown
  errors := by
    intro w label w' hown hs
    cases label with
    | elapse =>
        cases hs
        rfl
    | _ => cases hown

end PhoenixChannels.Socket
