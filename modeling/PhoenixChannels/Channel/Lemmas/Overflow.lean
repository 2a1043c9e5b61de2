import PhoenixChannels.Channel.Lemmas.Backoff
import PhoenixChannels.Overflow

/-!
# What a channel listener computes with timeouts

The computations of each handler, in order, and the bounds that they keep to in a run.
-/

namespace PhoenixChannels.Channel

open Machine

variable {env : Surroundings} {w w' : World} {state : State} {branch : Branch} {flow : Flow}
variable {read : Option TxId} {now : Instant} {label : Label} {last latest : Instant}
variable {timeout : Duration} {c : Computation}

/-! ## The computations -/

/-- `Rejoin::wait` -/
def Rejoin.waitComputes (rejoin : Rejoin) : List Computation :=
  [.mul rejoin.joinTimeout (sleepDurationMultiplier rejoin.attempts)]

def connectivityChangedComputes (state : State) (connectivity : Connectivity) : List Computation :=
  match state, connectivity with
  | .waitingForSocketToConnect (some rejoin), .connected => rejoin.waitComputes
  | _, _ => []

def pushReceivedComputes (joined : Joined) (push : Push) : List Computation :=
  if push.eventPayload.event = .phoenix .close then joined.rejoin.waitComputes else []

def joinedResultReceivedComputes (joining : Joining)
    (result : Except Socket.JoinError JoinedChannelReceivers) : List Computation :=
  match result with
  | .ok _ | .error (.shutdown _) => []
  | .error (.rejected _) | .error .disconnected | .error .timeout => joining.rejoin.waitComputes

def socketJoinComputes (createdAt : Instant) (rejoin : Rejoin) : List Computation :=
  [.add createdAt rejoin.joinTimeout]

def rejoinComputes (now : Instant) (rejoin : Rejoin) : List Computation :=
  socketJoinComputes now rejoin

def socketJoinIfNotTimedOutComputes (now createdAt : Instant) (timeout : Duration) :
    List Computation :=
  let rejoin : Rejoin := { joinTimeout := timeout, attempts := 0 }
  .add createdAt timeout ::
    if now ≤ createdAt + timeout then socketJoinComputes createdAt rejoin else rejoin.waitComputes

def updateStateComputes (now : Instant) (state : State) (command : StateCommand) :
    List Computation :=
  match command with
  | .join createdAt timeout _ =>
      if state.startsJoin then socketJoinIfNotTimedOutComputes now createdAt timeout else []
  | .leave _ => []

/-- The computations of the handler that a branch runs when it is ready. -/
def branchComputes (env : Surroundings) (w : World) (state : State) (branch : Branch) :
    List Computation :=
  match branch with
  | .connectivity =>
      match env.connectivity.recv w.seen with
      | (.message connectivity, _) => connectivityChangedComputes state connectivity
      | _ => []
  | .socketJoined =>
      match state with
      | .joining joining =>
          match env.joined joining.socketJoinedRx with
          | .sent result => joinedResultReceivedComputes joining result
          | _ => []
      | _ => []
  | .sleep =>
      match state with
      | .waitingToRejoin sleep r => if sleep ≤ env.now then rejoinComputes env.now r else []
      | _ => []
  | .stateCommand =>
      match w.stateCommandRx with
      | command :: _ => updateStateComputes env.now state command
      | [] => []
  | .push =>
      match state with
      | .joined joined =>
          match env.pushes joined.pushRx with
          | push :: _ => pushReceivedComputes joined push
          | [] => []
      | _ => []
  | .shutdown | .left | .socketLeft | .sendCommand | .broadcast => []

def computes (w : World) (label : Label) : List Computation :=
  match polled w label with
  | some (env, state, branch) => branchComputes env w state branch
  | none => []

theorem waitBegun?_next {state' : State} {effects : List Effect} :
    (Flow.next state' effects).waitBegun? now state = state.waitBegun? now state' := rfl

theorem wait_computed {r : Rejoin} {wait : Duration}
    (h : state.waitBegun? now (r.wait now) = some wait) :
    ∃ c ∈ r.waitComputes, c.wait? = some wait := by
  refine ⟨_, List.mem_singleton_self _, ?_⟩
  have hsleep : now + r.sleepDuration - now = r.sleepDuration := Nat.add_sub_cancel_left ..
  cases state with
  | waitingToRejoin => cases h
  | _ => exact (congrArg some hsleep.symm).trans h

theorem connectivityChanged_computed {connectivity : Connectivity} {wait : Duration}
    (h : state.waitBegun? now (connectivityChanged now state connectivity).1 = some wait) :
    ∃ c ∈ connectivityChangedComputes state connectivity, c.wait? = some wait := by
  cases state with
  | waitingForSocketToConnect rejoin =>
      rcases connectivity with _ | d
      · cases rejoin with
        | none => cases h
        | some r => exact wait_computed h
      · cases d <;> cases h
  | _ =>
      rcases connectivity with _ | d
      · cases h
      · cases d <;> cases h

theorem joinedResultReceived_computed {joining : Joining} {wait : Duration}
    {result : Except Socket.JoinError JoinedChannelReceivers}
    (h : state.waitBegun? now (joinedResultReceived now joining result).1 = some wait) :
    ∃ c ∈ joinedResultReceivedComputes joining result, c.wait? = some wait := by
  rcases result with error | receivers
  · cases error with
    | shutdown => cases h
    | rejected | disconnected | timeout => exact wait_computed h
  · cases h

theorem updateState_computed {command : StateCommand} {wait : Duration}
    (h : (updateState now state command).waitBegun? now state = some wait) :
    ∃ c ∈ updateStateComputes now state command, c.wait? = some wait := by
  have starts : ∀ createdAt timeout tx,
      (socketJoinIfNotTimedOut now state createdAt timeout tx).waitBegun? now state = some wait →
      ∃ c ∈ socketJoinIfNotTimedOutComputes now createdAt timeout, c.wait? = some wait := by
    intro createdAt timeout tx h
    simp only [socketJoinIfNotTimedOut] at h
    simp only [socketJoinIfNotTimedOutComputes]
    split at h
    · cases h
    · rename_i hlate
      obtain ⟨c, hc, hwait⟩ := wait_computed h
      rw [if_neg hlate]
      exact ⟨c, List.mem_cons_of_mem _ hc, hwait⟩
  cases command with
  | join createdAt timeout tx =>
      cases state with
      | waitingToJoin | leaving | left => exact starts _ _ _ h
      | _ => cases h
  | leave tx => cases state <;> cases h

/-- The wait that a handler begins is what it has computed. -/
theorem BranchReady.wait_computed {wait : Duration} (h : BranchReady env w state branch w' flow)
    (hwait : flow.waitBegun? env.now state = some wait) :
    ∃ c ∈ branchComputes env w state branch, c.wait? = some wait := by
  cases h with
  | shutdown => cases state <;> cases hwait
  | connectivity hrecv =>
      simp only [branchComputes, hrecv]
      exact connectivityChanged_computed hwait
  | socketJoined hsent =>
      simp only [branchComputes, hsent]
      rw [waitBegun?_next] at hwait
      exact joinedResultReceived_computed hwait
  | stateCommand hrx =>
      simp only [branchComputes, hrx]
      exact updateState_computed hwait
  | @push joined push rest hpush =>
      simp only [branchComputes, hpush, pushReceivedComputes]
      simp only [pushReceived] at hwait
      split at hwait
      · rename_i hclose
        rw [if_pos hclose]
        rw [waitBegun?_next] at hwait
        exact Channel.wait_computed hwait
      · cases hwait
  | @sendCommand joined command => cases command <;> cases hwait
  | socketJoinedClosed | left | socketLeft | broadcast | sleep => cases hwait

/-- The deadline of the join that the listener is giving to the socket. -/
def Task.deadline? : Task → Option Instant
  | calling (.join _ deadline _ _) => some deadline
  | _ => none

/-- The deadline that a handler gives to the socket is what it has computed. -/
theorem BranchReady.deadline_computed {deadline : Instant}
    (h : BranchReady env w state branch w' flow)
    (hdeadline : (w'.proceed flow).task.deadline? = some deadline) :
    ∃ c ∈ branchComputes env w state branch, c.deadline? = some deadline := by
  cases h with
  | sleep hsleep =>
      cases hdeadline
      simp only [branchComputes, if_pos hsleep]
      exact ⟨_, List.mem_singleton_self _, rfl⟩
  | @stateCommand state command rest hrx =>
      have starts : ∀ createdAt timeout tx,
          (World.proceed { w with stateCommandRx := rest }
            (socketJoinIfNotTimedOut env.now state createdAt timeout tx)).task.deadline? =
              some deadline →
          ∃ c ∈ socketJoinIfNotTimedOutComputes env.now createdAt timeout,
            c.deadline? = some deadline := by
        intro createdAt timeout tx h
        simp only [socketJoinIfNotTimedOut] at h
        split at h
        · cases h
          exact ⟨_, List.mem_cons_self, rfl⟩
        · cases h
      simp only [branchComputes, hrx]
      cases command with
      | join createdAt timeout tx =>
          cases state with
          | waitingToJoin | leaving | left => exact starts createdAt timeout tx hdeadline
          | _ => cases hdeadline
      | leave tx => cases state <;> cases hdeadline
  | @sendCommand joined command => cases command <;> cases hdeadline
  | shutdown | connectivity | socketJoined | socketJoinedClosed | left | socketLeft | push
  | broadcast => cases hdeadline

/-! ## The bounds -/

/-- The instants of an input go up to `latest`, and its timeouts up to `timeout`. -/
def InputWithin (latest : Instant) (timeout : Duration) : Label → Prop
  | .stateCommand (.join createdAt joinTimeout _) => createdAt ≤ latest ∧ joinTimeout ≤ timeout
  | .poll env => env.now ≤ latest
  | _ => True

instance : DecidablePred (InputWithin latest timeout)
  | .stateCommand (.join _ _ _) => inferInstanceAs (Decidable (_ ∧ _))
  | .poll _ => inferInstanceAs (Decidable (_ ≤ _))
  | .stateCommand (.leave _) | .asked _ _ _ | .sendCommand _ | .sent _ | .failed _ | .publish =>
      isTrue trivial

/-- What a listener holds is within the bounds, whatever the number of its attempts. -/
structure World.Within (latest : Instant) (timeout : Duration) (w : World) : Prop where
  queued : ∀ createdAt joinTimeout tx, .join createdAt joinTimeout tx ∈ w.stateCommandRx →
    createdAt ≤ latest ∧ joinTimeout ≤ timeout
  carried : ∀ joinTimeout attempts, w.counter = some (joinTimeout, attempts) →
    joinTimeout ≤ timeout

theorem World.Within.rejoin {r : Rejoin} (h : w.Within latest timeout)
    (hr : w.task.rejoin? = some r) : r.joinTimeout ≤ timeout :=
  h.carried r.joinTimeout r.attempts.toNat (by rw [World.counter, hr]; rfl)

theorem waitComputes_within {r : Rejoin} (h : r.joinTimeout ≤ timeout) :
    ∀ c ∈ r.waitComputes, c.Within latest timeout := by
  intro c hc
  cases List.mem_singleton.mp hc
  exact Computation.within_mul _ h

theorem socketJoinComputes_within {createdAt : Instant} {r : Rejoin} (hcreated : createdAt ≤ latest)
    (h : r.joinTimeout ≤ timeout) : ∀ c ∈ socketJoinComputes createdAt r, c.Within latest timeout := by
  intro c hc
  cases List.mem_singleton.mp hc
  exact ⟨hcreated, h⟩

theorem updateStateComputes_within {command : StateCommand}
    (h : ∀ createdAt joinTimeout tx, command = .join createdAt joinTimeout tx →
      createdAt ≤ latest ∧ joinTimeout ≤ timeout) :
    ∀ c ∈ updateStateComputes now state command, c.Within latest timeout := by
  intro c hc
  cases command with
  | join createdAt joinTimeout tx =>
      obtain ⟨hcreated, htimeout⟩ := h createdAt joinTimeout tx rfl
      simp only [updateStateComputes, socketJoinIfNotTimedOutComputes] at hc
      split at hc
      · rcases List.mem_cons.mp hc with rfl | hc
        · exact ⟨hcreated, htimeout⟩
        · split at hc
          · exact socketJoinComputes_within hcreated htimeout c hc
          · exact waitComputes_within htimeout c hc
      · cases hc
  | leave tx => cases hc

theorem branchComputes_within (hw : w.Within latest timeout) (hnow : env.now ≤ latest)
    (hrejoin : ∀ r, state.rejoin? = some r → r.joinTimeout ≤ timeout) :
    ∀ c ∈ branchComputes env w state branch, c.Within latest timeout := by
  intro c hc
  cases branch with
  | connectivity =>
      simp only [branchComputes] at hc
      split at hc
      · unfold connectivityChangedComputes at hc
        split at hc
        · exact waitComputes_within (hrejoin _ rfl) c hc
        · cases hc
      · cases hc
  | socketJoined =>
      simp only [branchComputes] at hc
      split at hc
      · split at hc
        · unfold joinedResultReceivedComputes at hc
          split at hc
          · cases hc
          · cases hc
          · exact waitComputes_within (hrejoin _ rfl) c hc
          · exact waitComputes_within (hrejoin _ rfl) c hc
          · exact waitComputes_within (hrejoin _ rfl) c hc
        · cases hc
      · cases hc
  | sleep =>
      simp only [branchComputes] at hc
      split at hc
      · split at hc
        · exact socketJoinComputes_within hnow (hrejoin _ rfl) c hc
        · cases hc
      · cases hc
  | stateCommand =>
      simp only [branchComputes] at hc
      split at hc
      · rename_i command rest hrx
        refine updateStateComputes_within (fun createdAt joinTimeout tx hjoin => ?_) c hc
        exact hw.queued createdAt joinTimeout tx (by simp [hrx, hjoin])
      · cases hc
  | push =>
      simp only [branchComputes] at hc
      split at hc
      · split at hc
        · unfold pushReceivedComputes at hc
          split at hc
          · exact waitComputes_within (hrejoin _ rfl) c hc
          · cases hc
        · cases hc
      · cases hc
  | shutdown | left | socketLeft | sendCommand | broadcast => cases hc

theorem polled_cases (h : polled w label = some (env, state, branch)) :
    label = .poll env ∧ w.task.rejoin? = state.rejoin? := by
  unfold polled at h
  split at h
  · split at h <;> cases h
    rename_i htask
    exact ⟨rfl, by rw [htask]; rfl⟩
  · cases h

theorem computes_within (hw : w.Within latest timeout) (hl : InputWithin latest timeout label) :
    ∀ c ∈ computes w label, c.Within latest timeout := by
  intro c hc
  unfold computes at hc
  split at hc
  · rename_i env state branch hpolled
    obtain ⟨rfl, hrejoin⟩ := polled_cases hpolled
    exact branchComputes_within hw hl (fun r hr => hw.rejoin (hrejoin.trans hr)) c hc
  · cases hc

/-! ## Steps -/

theorem started_queued {joinTimeout : Duration}
    (h : backoff.started? w label = some joinTimeout) :
    ∃ createdAt tx, .join createdAt joinTimeout tx ∈ w.stateCommandRx := by
  obtain ⟨⟨env, state, branch⟩, _, hattempt⟩ := Option.bind_eq_some_iff.mp h
  simp only [] at hattempt
  unfold attempt? at hattempt
  split at hattempt
  · split at hattempt
    · rename_i hrx
      split at hattempt <;> cases hattempt
      exact ⟨_, _, by rw [hrx]; exact List.mem_cons_self⟩
    · cases hattempt
  · cases hattempt

theorem proceed_stateCommandRx : (w.proceed flow).stateCommandRx ⊆ w.stateCommandRx := by
  cases flow with
  | next | call => exact List.Subset.refl _
  | exit | panic => exact List.nil_subset _

theorem within_step (hw : w.Within latest timeout) (hl : InputWithin latest timeout label)
    (hstep : machine.step w label = some w') : w'.Within latest timeout := by
  have hstarted : ∀ t, backoff.started? w label = some t → t ≤ timeout := by
    intro t ht
    obtain ⟨createdAt, tx, hmem⟩ := started_queued ht
    exact (hw.queued createdAt t tx hmem).2
  refine ⟨?_, (step_counts hstep).unit_le hstarted hw.carried⟩
  intro createdAt joinTimeout tx hmem
  cases step_cases hstep with
  | asked | sendCommand | sent | publish => exact hw.queued createdAt joinTimeout tx hmem
  | stateCommand =>
      rcases List.mem_append.mp hmem with hmem | hmem
      · exact hw.queued createdAt joinTimeout tx hmem
      · cases List.mem_singleton.mp hmem
        exact hl
  | poll hpoll => exact hw.queued createdAt joinTimeout tx (hpoll.stateCommandRx hmem)
  | @failed c shutdownError htask =>
      refine hw.queued createdAt joinTimeout tx ?_
      cases shutdownError with
      | ok error => exact proceed_stateCommandRx hmem
      | error reason => exact proceed_stateCommandRx hmem

/-! ## Runs -/

/-- No step of a run overflows where the run keeps to the bounds; it may begin with any listener that
does, and so with any number of attempts. -/
def NeverOverflows (last latest : Instant) (timeout : Duration) : Prop :=
  ∀ w₀ ls w, w₀.Within latest timeout →
    Run machine (fun _ label => InputWithin latest timeout label) w₀ ls w →
    ∀ x ∈ machine.steps w₀ ls, ∀ c ∈ computes x.1 x.2, c.fits last = true

theorem neverOverflows_of_fits (hadd : latest + timeout ≤ last)
    (hmul : timeout * 10 ≤ maxDuration) : NeverOverflows last latest timeout := by
  intro w₀ ls w hw₀ hrun
  refine hrun.forall_steps fun ls w label hrun hl c hc => ?_
  have hw : w.Within latest timeout :=
    hrun.invariant hw₀ fun _ _ _ hw hl hstep => within_step hw hl hstep
  exact (computes_within hw hl c hc).fits_of_mul hadd hmul

/-- A listener that was just spawned holds no timeout. -/
theorem within_start {listener : Listener} {before : Socket.State} {seen : Nat} :
    (start listener before seen).Within latest timeout where
  queued _ _ _ hmem := by cases hmem
  carried t n ht := by
    rw [counter_start] at ht
    cases ht

end PhoenixChannels.Channel
