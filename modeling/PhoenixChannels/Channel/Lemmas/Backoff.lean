import PhoenixChannels.Channel.Lemmas.Arrivals
import PhoenixChannels.Channel.Machine
import PhoenixChannels.Lib.Backoff

/-!
# Waiting to rejoin

The waits of a channel listener, as a machine that backs off: an explicit join that starts an attempt
starts over, and so does a join that succeeds.
-/

namespace PhoenixChannels.Channel

open Machine

variable {env : Surroundings} {w w' : World} {state : State} {branch : Branch} {flow : Flow}
variable {read : Option TxId} {now : Instant} {label : Label} {carried : Option Rejoin}

/-! ## The property -/

/-- The timeout of the explicit join by which a branch starts an attempt. -/
def attempt? (w : World) (state : State) : Branch → Option Duration
  | .stateCommand =>
      match w.stateCommandRx with
      | .join _ timeout _ :: _ => if state.startsJoin then some timeout else none
      | _ => none
  | _ => none

/-- The wait that begins when a handler comes from another state to `WaitingToRejoin`. -/
def State.waitBegun? (now : Instant) (state : State) : State → Option Duration
  | waitingToRejoin sleep _ =>
      match state with
      | waitingToRejoin _ _ => none
      | _ => some (sleep - now)
  | _ => none

/-- The wait that begins when a step comes to `w'?`. -/
def World.waitBegun? (w : World) (label : Label) (w'? : Option World) : Option Duration :=
  match polled w label, w'?.map World.task with
  | some (env, state, _), some (.publishing state') => state.waitBegun? env.now state'
  | _, _ => none

/-- The waits of the listener, whose attempts are started by explicit joins. -/
def backoff : Backoff World Label where
  started? w label := (polled w label).bind fun (_, state, branch) => attempt? w state branch
  wait? w label := w.waitBegun? label (w.step label)
  settled w := w.task.joined?.isSome

/-! ## What a listener carries -/

/-- What a wait that begins now would go by. -/
def State.rejoin? : State → Option Rejoin
  | waitingForSocketToConnect rejoin => rejoin
  | joining j => some j.rejoin
  | waitingToRejoin _ rejoin => some rejoin
  | joined j => some j.rejoin
  | waitingToJoin | leaving _ | left | shuttingDown | shutDown => none

def SocketCall.rejoin? : SocketCall → Option Rejoin
  | join _ _ rejoin _ => some rejoin
  | leaveJoining joining _ => some joining.rejoin
  | leaveJoined joined _ | cast joined _ _ | call joined _ _ => some joined.rejoin

def Task.rejoin? : Task → Option Rejoin
  | selecting state _ _ | publishing state => state.rejoin?
  | calling c => c.rejoin?
  | exited _ | panicked _ => none

def Flow.rejoin? : Flow → Option Rejoin
  | next state _ => state.rejoin?
  | call c => c.rejoin?
  | exit _ _ | panic _ => none

/-- What a wait that a branch begins would go by. -/
def World.entered (w : World) (state : State) (branch : Branch) : Option Rejoin :=
  ((attempt? w state branch).map fun timeout => { joinTimeout := timeout, attempts := 0 }).or
    state.rejoin?

theorem proceed_rejoin? : (w.proceed flow).task.rejoin? = flow.rejoin? := by
  cases flow <;> rfl

def Rejoin.counter (rejoin : Rejoin) : Nat × Nat := (rejoin.joinTimeout, rejoin.attempts.toNat)

def World.counter (w : World) : Option (Nat × Nat) := w.task.rejoin?.map Rejoin.counter

/-- The wait that begins when a handler comes to `flow`. -/
def Flow.waitBegun? (now : Instant) (state : State) : Flow → Option Duration
  | next state' _ => state.waitBegun? now state'
  | _ => none

/-- What a handler does to the attempts: it keeps them, it joins, or it begins a wait. -/
inductive NextFlow (now : Instant) (state : State) (carried : Option Rejoin) (flow : Flow) : Prop
  | kept : flow.waitBegun? now state = none → (∀ r, flow.rejoin? = some r → carried = some r) →
      NextFlow now state carried flow
  | joins {r joined} : carried = some r → flow.waitBegun? now state = none →
      flow.joined? = some joined → joined.joinTimeout = r.joinTimeout →
      NextFlow now state carried flow
  | waits {r effects} : carried = some r → flow = .next (r.wait now) effects →
      flow.waitBegun? now state = some r.sleepDuration → NextFlow now state carried flow

/-! ## Handlers -/

theorem NextFlow.wait {r : Rejoin} {effects : List Effect} (hentered : carried = some r)
    (hstate : ∀ sleep r', state ≠ .waitingToRejoin sleep r') :
    NextFlow now state carried (.next (r.wait now) effects) := by
  refine .waits hentered rfl ?_
  have hsleep : now + r.sleepDuration - now = r.sleepDuration := Nat.add_sub_cancel_left ..
  cases state with
  | waitingToRejoin sleep r' => exact absurd rfl (hstate sleep r')
  | _ => exact congrArg some hsleep

theorem NextFlow.gone (hwait : flow.waitBegun? now state = none) (hrejoin : flow.rejoin? = none) :
    NextFlow now state carried flow := by
  refine .kept hwait fun r hr => ?_
  rw [hrejoin] at hr
  cases hr

theorem shutdown_nextFlow :
    NextFlow now state carried (.next (shutdown state).1 (shutdown state).2) := by
  cases state <;> exact .gone rfl rfl

theorem connectivityChanged_nextFlow {connectivity : Connectivity} :
    NextFlow now state state.rejoin?
      (.next (connectivityChanged now state connectivity).1
        (connectivityChanged now state connectivity).2) := by
  cases state with
  | waitingForSocketToConnect rejoin =>
      rcases connectivity with _ | d
      · cases rejoin with
        | none => exact .gone rfl rfl
        | some r => exact .wait rfl (by simp)
      · cases d with
        | disconnect | reconnect => exact .kept rfl fun r hr => hr
        | shutdown => exact .gone rfl rfl
  | _ =>
      rcases connectivity with _ | d
      · exact .kept rfl fun r hr => hr
      · cases d <;> first | exact .gone rfl rfl | exact .kept rfl fun r hr => hr

theorem joinedResultReceived_nextFlow {joining : Joining}
    {result : Except Socket.JoinError JoinedChannelReceivers} :
    NextFlow now (.joining joining) (some joining.rejoin)
      (.next (joinedResultReceived now joining result).1
        (joinedResultReceived now joining result).2) := by
  rcases result with error | receivers
  · cases error with
    | shutdown => exact .gone rfl rfl
    | rejected | disconnected | timeout => exact .wait rfl (by simp)
  · exact .joins rfl rfl rfl rfl

theorem pushReceived_nextFlow {joined : Joined} {push : Push} :
    NextFlow now (.joined joined) (some joined.rejoin)
      (.next (pushReceived now joined push).1 (pushReceived now joined push).2) := by
  simp only [pushReceived]
  split
  · exact .wait rfl (by simp)
  · exact .kept rfl fun r hr => hr

theorem socketJoinIfNotTimedOut_nextFlow {createdAt : Instant} {timeout : Duration} {tx : TxId}
    (hstate : ∀ sleep r, state ≠ .waitingToRejoin sleep r) :
    NextFlow now state (some ⟨timeout, 0⟩)
      (socketJoinIfNotTimedOut now state createdAt timeout tx) := by
  simp only [socketJoinIfNotTimedOut]
  split
  · exact .kept rfl fun r hr => hr
  · exact .wait rfl hstate

theorem updateState_startsJoin {createdAt : Instant} {timeout : Duration} {tx : TxId}
    (h : state.startsJoin = true) : updateState now state (.join createdAt timeout tx) =
      socketJoinIfNotTimedOut now state createdAt timeout tx := by
  cases state <;> first | rfl | cases h

/-- Commands that start no attempt. -/
theorem updateState_nextFlow {command : StateCommand}
    (hplain : ∀ createdAt timeout tx, command = .join createdAt timeout tx →
      state.startsJoin = false) :
    NextFlow now state state.rejoin? (updateState now state command) := by
  cases command with
  | join createdAt timeout tx =>
      have hstarts := hplain createdAt timeout tx rfl
      cases state with
      | waitingToJoin | leaving | left => cases hstarts
      | waitingForSocketToConnect => exact .gone rfl rfl
      | _ => exact .kept rfl fun r hr => hr
  | leave tx =>
      cases state with
      | waitingToRejoin => exact .gone rfl rfl
      | _ => exact .kept rfl fun r hr => hr

theorem BranchReady.nextFlow (h : BranchReady env w state branch w' flow) :
    NextFlow env.now state (w.entered state branch) flow := by
  cases h with
  | shutdown => exact shutdown_nextFlow
  | connectivity => exact connectivityChanged_nextFlow
  | socketJoined => exact joinedResultReceived_nextFlow
  | socketJoinedClosed | left | socketLeft => exact .gone rfl rfl
  | sleep | broadcast => exact .kept rfl fun r hr => hr
  | @stateCommand state command rest hrx =>
      have hattempt : attempt? w state .stateCommand = match command with
          | .join _ timeout _ => if state.startsJoin then some timeout else none
          | .leave _ => none := by
        simp only [attempt?, hrx]
        cases command <;> rfl
      rw [World.entered, hattempt]
      cases command with
      | leave tx => exact updateState_nextFlow (by simp)
      | join createdAt timeout tx =>
          cases hstarts : state.startsJoin with
          | false => exact updateState_nextFlow fun _ _ _ _ => hstarts
          | true =>
              rw [updateState_startsJoin hstarts]
              refine socketJoinIfNotTimedOut_nextFlow ?_
              rintro sleep r rfl
              cases hstarts
  | @sendCommand joined command => cases command <;> exact .kept rfl fun r hr => hr
  | push => exact pushReceived_nextFlow

/-! ## Steps -/

theorem rejoin?_joined {task : Task} {joined : Joined} (h : task.joined? = some joined) :
    task.rejoin? = some joined.rejoin := by
  cases task with
  | selecting state | publishing state =>
      cases state <;> cases h
      rfl
  | calling c => cases c <;> cases h <;> rfl
  | exited | panicked => cases h

/-- A membership starts over. -/
theorem counter_settled {unit n : Nat} (h : w.counter = some (unit, n)) :
    n = if backoff.settled w then 0 else n := by
  split
  · rename_i hsettled
    obtain ⟨joined, hjoined⟩ := Option.isSome_iff_exists.mp hsettled
    rw [World.counter, rejoin?_joined hjoined] at h
    cases h
    rfl
  · rfl

/-- Steps that start no attempt and begin no wait. -/
theorem counts_idle (hstarted : backoff.started? w label = none)
    (hwait : backoff.wait? w label = none)
    (hrejoin : ∀ r, w'.task.rejoin? = some r → w.task.rejoin? = some r) :
    backoff.Counts sleepDurationMultipliers 65535 World.counter w label w' := by
  refine .keeps hwait fun unit n hn => ⟨n, ?_, counter_settled hn⟩
  rw [Backoff.entered, hstarted, Option.map_none, Option.none_or]
  obtain ⟨r, hr, hcounter⟩ := Option.map_eq_some_iff.mp hn
  rw [World.counter, hrejoin r hr, Option.map_some, hcounter]

/-- Handlers that a branch runs. -/
theorem counts_nextFlow
    (hwait : backoff.wait? w label = flow.waitBegun? now state)
    (hentered : backoff.entered World.counter w label = carried.map Rejoin.counter)
    (hnext : NextFlow now state carried flow) :
    backoff.Counts sleepDurationMultipliers 65535 World.counter w label (w'.proceed flow) := by
  have hcounter : (w'.proceed flow).counter = flow.rejoin?.map Rejoin.counter := by
    rw [World.counter, proceed_rejoin?]
  cases hnext with
  | kept hbegun hkept =>
      refine .keeps (hwait.trans hbegun) fun unit n hn => ⟨n, ?_, counter_settled hn⟩
      rw [hcounter, Option.map_eq_some_iff] at hn
      obtain ⟨r, hr, hcounter⟩ := hn
      rw [hentered, hkept r hr, Option.map_some, hcounter]
  | @joins r joined hr hbegun hjoined htimeout =>
      have htask : (w'.proceed flow).task.joined? = some joined := by
        rw [proceed_joined?, hjoined]
      refine .keeps (hwait.trans hbegun) fun unit n hn => ⟨r.attempts.toNat, ?_, ?_⟩
      · rw [World.counter, rejoin?_joined htask] at hn
        cases hn
        have htimeout' : joined.rejoin.joinTimeout = r.joinTimeout := htimeout
        rw [hentered, hr, htimeout']
        rfl
      · have hsettled : backoff.settled (w'.proceed flow) = true := by
          simp only [backoff, htask, Option.isSome_some]
        have hzero := counter_settled hn
        rw [hsettled] at hzero ⊢
        exact hzero
  | @waits r effects hr hflow hbegun =>
      have hn : backoff.entered World.counter w label = some (r.joinTimeout, r.attempts.toNat) := by
        rw [hentered, hr]
        rfl
      refine .waits hn (hwait.trans hbegun) ?_ ?_
      · simp only [backoff, proceed_joined?, hflow]
        rfl
      · intro p hp
        rw [hcounter, hflow] at hp
        cases hp
        rw [← saturatingNext_toNat]
        rfl

theorem BranchReady.counts {rest disabled : List Branch}
    (htask : w.task = .selecting state (branch :: rest) disabled)
    (h : BranchReady env w state branch w' flow)
    (hstep : World.step w (.poll env) = some (w'.proceed flow)) :
    backoff.Counts sleepDurationMultipliers 65535 World.counter w (.poll env) (w'.proceed flow) := by
  have hpolled : polled w (.poll env) = some (env, state, branch) := by simp [polled, htask]
  have hwait : backoff.wait? w (.poll env) = flow.waitBegun? env.now state := by
    simp only [backoff, World.waitBegun?, hpolled, hstep, Option.map_some]
    cases flow <;> rfl
  have hcounter : w.counter = state.rejoin?.map Rejoin.counter := by
    rw [World.counter, htask]
    rfl
  have hentered : backoff.entered World.counter w (.poll env) =
      (w.entered state branch).map Rejoin.counter := by
    simp only [Backoff.entered, backoff, hpolled, Option.bind_some, hcounter, World.entered]
    cases attempt? w state branch <;> rfl
  exact counts_nextFlow hwait hentered h.nextFlow

/-- A poll of a branch that is not ready. -/
theorem counts_unready {rest disabled : List Branch}
    (htask : w.task = .selecting state (branch :: rest) disabled)
    (hunready : ∀ w' flow, w.pollBranch env state branch ≠ .ready w' flow)
    (hstep : World.step w (.poll env) = some w') (hstate : ∀ s, w'.task ≠ .publishing s)
    (hrejoin : w'.task.rejoin? = state.rejoin?) :
    backoff.Counts sleepDurationMultipliers 65535 World.counter w (.poll env) w' := by
  have hpolled : polled w (.poll env) = some (env, state, branch) := by simp [polled, htask]
  refine counts_idle ?_ ?_ fun r hr => ?_
  · simp only [backoff, hpolled, Option.bind_some]
    cases branch with
    | stateCommand =>
        cases hrx : w.stateCommandRx with
        | nil => simp only [attempt?, hrx]
        | cons command rest => exact absurd (pollBranch_stateCommand hrx) (hunready _ _)
    | _ => rfl
  · simp only [backoff, World.waitBegun?, hpolled, hstep, Option.map_some]
    cases htask' : w'.task with
    | publishing s => exact absurd htask' (hstate s)
    | _ => rfl
  · rw [htask]
    exact hrejoin.symm.trans hr

theorem PollStep.counts (h : PollStep env w w' read)
    (hstep : World.step w (.poll env) = some w') :
    backoff.Counts sleepDurationMultipliers 65535 World.counter w (.poll env) w' := by
  have idle : ∀ {state disabled}, w.task = .selecting state [] disabled →
      (∀ r, w'.task.rejoin? = some r → w.task.rejoin? = some r) →
      backoff.Counts sleepDurationMultipliers 65535 World.counter w (.poll env) w' :=
    fun htask => counts_idle (by simp [backoff, polled, htask])
      (by simp [backoff, World.waitBegun?, polled, htask])
  cases h with
  | breakOk htask =>
      refine idle htask fun r hr => ?_
      cases hr
  | round htask =>
      refine idle htask fun r hr => ?_
      rw [htask]
      exact hr
  | pending htask hpending =>
      exact counts_unready htask (by simp [hpending]) hstep (by simp) rfl
  | mismatch htask hmismatch hpoll =>
      refine counts_unready htask (by simp [hpoll]) hstep (by simp) ?_
      cases hmismatch <;> rfl
  | ready htask hready => exact hready.counts htask hstep

/-- A call that fails goes on with what its handler carries. -/
theorem failed_rejoin? {c : SocketCall} {shutdownError : Except Panic Socket.ShutdownError}
    {r : Rejoin} (h : (w.failed c shutdownError).task.rejoin? = some r) : c.rejoin? = some r := by
  cases shutdownError with
  | error => cases h
  | ok error =>
      rw [World.failed, proceed_rejoin?] at h
      cases c with
      | join state => cases state <;> cases h
      | cast | call => cases h
      | _ => exact h

/-- Every step of a channel listener counts. -/
theorem step_counts (h : machine.step w label = some w') :
    backoff.Counts sleepDurationMultipliers 65535 World.counter w label w' := by
  have hstep : World.step w label = some w' := h
  cases step_cases h with
  | asked | stateCommand | sendCommand => exact counts_idle rfl rfl fun r hr => hr
  | poll hpoll => exact hpoll.counts hstep
  | @sent c fresh htask =>
      refine counts_idle rfl rfl fun r hr => ?_
      rw [htask]
      cases c with
      | leaveJoining | leaveJoined => cases hr
      | _ => exact hr
  | failed htask =>
      refine counts_idle rfl rfl fun r hr => ?_
      rw [htask]
      exact failed_rejoin? hr
  | publish htask =>
      refine counts_idle rfl rfl fun r hr => ?_
      rw [htask]
      exact hr

theorem counter_start {listener : Listener} {before : Socket.State} {seen : Nat} :
    (start listener before seen).counter = none := by
  cases before <;> rfl

end PhoenixChannels.Channel
