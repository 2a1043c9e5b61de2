import PhoenixChannels.Channel.Clocked
import PhoenixChannels.Channel.Lemmas.Consent
import PhoenixChannels.Channel.Lemmas.Departures
import PhoenixChannels.Channel.Lemmas.Settlements
import PhoenixChannels.Socket.Clocked
import PhoenixChannels.Socket.Theorems

/-!
# Theorems on channel listeners

What holds of every run of a channel listener, whatever its callers, the socket and the clock do.
-/

namespace PhoenixChannels.Channel

open Machine History
open Socket (lobby lobbyReference)

variable {ok : World → Label → Prop} {listener : Listener} {before : Socket.State} {seen : Nat}
variable {ls : List Label} {w : World}

/-! ## Labels of the sample runs -/

def lobbyListener : Listener where
  topic := lobby
  payload := .empty
  joinReference := lobbyReference

/-- The socket is connected, and nothing else has happened for the listener. -/
def quiet (now : Instant) : Surroundings where
  now
  connectivity := ⟨1, [.connected]⟩
  connectivityClosed := false
  joined := fun _ => .pending
  left := fun _ => .pending
  memberLeft := fun _ => .pending
  pushes := fun _ => []
  pushClosed := fun _ => false
  broadcasts := fun _ => ⟨64, []⟩
  broadcastClosed := fun _ => false

/-- The join that was sent has a result. -/
def joinResult (now : Instant) (result : Except Socket.JoinError JoinedChannelReceivers) :
    Surroundings :=
  { quiet now with joined := fun _ => .sent result }

def accepted : JoinedChannelReceivers := ⟨.empty, 20, ⟨21, 0⟩, 22⟩

/-- The first `count` branches are polled. -/
def polls (env : Surroundings) (count : Nat) : List Label := List.replicate count (.poll env)

/-- A caller joins, and the listener sends the join to the socket. -/
def sendJoin : List Label :=
  [.stateCommand (.join 0 5 1)] ++ polls (quiet 0) 3 ++ [.sent 10, .publish]

/-- The lobby's listener, spawned while the socket is connected. -/
def lobbyStart : World := start lobbyListener (.connected (.new 0 5)) 1

/-! ## Joiners and leavers -/

/-- Where no join that has to be sent to the socket is processed after its deadline, each sender of a
join or a leave is held or was answered, and that once. -/
theorem settlesOnce
    (h : Run machine (fun w label => joinsInTime w label = true) (start listener before seen) ls w) :
    SettledOnce (machine.steps (start listener before seen) ls) w := settledOnce_of_run h

/-- Two callers join, and a third leaves before there is a result. -/
def leaveWhileJoining : List Label :=
  sendJoin ++ [.stateCommand (.join 0 5 2), .stateCommand (.leave 3)] ++ polls (quiet 1) 3
    ++ [.publish] ++ polls (quiet 1) 3 ++ [.sent 11, .publish]

theorem settlesOnce_leaveWhileJoining :
    ∃ w, Run machine (fun w label => joinsInTime w label = true) lobbyStart leaveWhileJoining w ∧
      (w.task.isRunning, receivedTxs (machine.steps lobbyStart leaveWhileJoining),
        w.task.pendingTxs, w.answeredTxs) = (true, [1, 2, 3], [3], [1, 2]) ∧
      SettledOnce (machine.steps lobbyStart leaveWhileJoining) w := by
  obtain ⟨w, hrun, hw⟩ := exists_run (M := machine)
    (show (Machine.exec _ (fun w label => joinsInTime w label = true) lobbyStart
      leaveWhileJoining).map (fun w => (w.task.isRunning,
        receivedTxs (machine.steps lobbyStart leaveWhileJoining), w.task.pendingTxs,
        w.answeredTxs)) = some (true, [1, 2, 3], [3], [1, 2]) by decide +kernel)
  exact ⟨w, hrun, hw, settlesOnce hrun⟩

/-- The listener takes a join when its deadline has passed. -/
def lateJoin : List Label := [.stateCommand (.join 0 5 1)] ++ polls (quiet 6) 3

/-- The sender of the join is dropped, and the listener goes on. -/
theorem lateJoin_not_settlesOnce :
    ∃ w, Run machine Free lobbyStart lateJoin w ∧
      ¬ SettledOnce (machine.steps lobbyStart lateJoin) w := by
  obtain ⟨w, hrun, hw⟩ := exists_run (M := machine)
    (show (Machine.exec _ Free lobbyStart lateJoin).map (fun w => (w.task.isRunning,
        receivedTxs (machine.steps lobbyStart lateJoin), w.task.pendingTxs ++ w.answeredTxs)) =
      some (true, [1], []) by decide +kernel)
  simp only [Prod.mk.injEq] at hw
  obtain ⟨hruns, hreceived, hsettled⟩ := hw
  refine ⟨w, hrun, fun h => ?_⟩
  have hperm := h hruns
  rw [hreceived, hsettled] at hperm
  exact absurd hperm.length_eq (by decide)

/-! ## Consent to joins -/

/-- A join is sent, and a rejoin begins, only where an explicit join started the attempt and the
channel has not left since, and the deadline comes from the timeout of that join. -/
theorem joinsWithConsent (h : Run machine ok (start listener before seen) ls w) :
    Always Consented (events (machine.steps (start listener before seen) ls)) :=
  consented_of_run h

/-- The server rejects the join, and the listener sends it again. -/
def rejoinAfterRejection : List Label :=
  sendJoin ++ polls (joinResult 1 (.error (.rejected .empty))) 2 ++ [.publish]
    ++ polls (quiet 30) 3 ++ [.sent 11]

def Event.deadline? : Event → Option Instant
  | sends join => some join.deadline
  | _ => none

theorem joinsWithConsent_rejoinAfterRejection :
    ∃ w, Run machine Free lobbyStart rejoinAfterRejection w ∧
      (events (machine.steps lobbyStart rejoinAfterRejection)).filterMap Event.deadline? = [5, 35] ∧
      Always Consented (events (machine.steps lobbyStart rejoinAfterRejection)) := by
  obtain ⟨w, hrun, hdeadlines⟩ := exists_run (M := machine)
    (show (Machine.exec _ Free lobbyStart rejoinAfterRejection).map (fun _ =>
      (events (machine.steps lobbyStart rejoinAfterRejection)).filterMap Event.deadline?) =
        some [5, 35] by decide +kernel)
  exact ⟨w, hrun, hdeadlines, joinsWithConsent hrun⟩

/-! ## Leaves of channels that are dropped -/

/-- A listener that has ended left the channel when it was dropped if and only if it was not joining
or joined on the connection of then. -/
theorem leavesWhenDropped_iff (h : Run machine ok (start listener before seen) ls w)
    (hended : w.task.isRunning = false) :
    LeavesWhenDropped (machine.steps (start listener before seen) ls) w ↔
      shutsDownUnjoined (machine.steps (start listener before seen) ls) = true :=
  leavesWhenDropped_iff_of_run h hended

/-- The `Channel` is dropped, and the listener ends. -/
def drop : List Label := [.asked true true false, .poll (quiet 1), .publish, .poll (quiet 1)]

/-- The channel is dropped before anybody has joined. -/
theorem leavesWhenDropped_unjoined :
    ∃ w, Run machine Free lobbyStart drop w ∧ w.task.isRunning = false ∧
      (machine.steps lobbyStart drop).any (fun x => (shutsDown x.1 x.2).isSome) = true ∧
      LeavesWhenDropped (machine.steps lobbyStart drop) w := by
  obtain ⟨w, hrun, hw⟩ := exists_run (M := machine)
    (show (Machine.exec _ Free lobbyStart drop).map (fun w => (w.task.isRunning,
      (machine.steps lobbyStart drop).any (fun x => (shutsDown x.1 x.2).isSome),
      shutsDownUnjoined (machine.steps lobbyStart drop))) = some (false, true, true)
      by decide +kernel)
  simp only [Prod.mk.injEq] at hw
  obtain ⟨hended, hshuts, hunjoined⟩ := hw
  exact ⟨w, hrun, hended, hshuts, (leavesWhenDropped_iff hrun hended).mpr hunjoined⟩

/-- The channel is dropped when it has joined. -/
def dropJoined : List Label :=
  sendJoin ++ polls (joinResult 1 (.ok accepted)) 2 ++ [.publish] ++ drop

/-- No leave is given to the socket. -/
theorem dropJoined_not_leaves :
    ∃ w, Run machine Free lobbyStart dropJoined w ∧
      ¬ LeavesWhenDropped (machine.steps lobbyStart dropJoined) w := by
  obtain ⟨w, hrun, hw⟩ := exists_run (M := machine)
    (show (Machine.exec _ Free lobbyStart dropJoined).map (fun w => (w.task.isRunning,
      shutsDownUnjoined (machine.steps lobbyStart dropJoined))) = some (false, false)
      by decide +kernel)
  obtain ⟨hended, hunjoined⟩ := Prod.mk.inj hw
  refine ⟨w, hrun, fun h => ?_⟩
  rw [leavesWhenDropped_iff_of_run hrun hended, hunjoined] at h
  cases h

/-! ## Waiting -/

/-- Both listeners wait by one schedule, which does not end: the socket listener after the connect
that was honoured last or its last connection, the channel listener after the explicit join that
started the last attempt or its last membership. The longest wait is a `Duration`, and it ends by the
last instant whenever it begins. -/
theorem waitsBySchedule {last latest : Instant} {timeout : Duration}
    (hlast : latest + timeout * 10 ≤ last) (hmul : timeout * 10 ≤ maxDuration) :
    (∀ ls w, Run (Socket.clocked last none) (Socket.InputWithin last latest timeout) .init ls w →
      (Socket.clockedBackoff last).Scheduled [0, 1, 2, 5, 10]
        ((Socket.clocked last none).steps .init ls)) ∧
    (∀ listener before seen ls w,
      Run (clocked last) (fun _ label => InputWithin latest timeout label)
        (start listener before seen) ls w →
      (clockedBackoff last).Scheduled [0, 1, 2, 5, 10]
        ((clocked last).steps (start listener before seen) ls)) :=
  ⟨fun _ _ h => Socket.scheduled_of_run hlast hmul h,
    fun _ _ _ _ _ h => scheduled_of_run hlast hmul h⟩

/-- The timer fires at `now`, and the server is not there again. -/
def refused (now : Duration) : List Socket.Label :=
  [.elapse now] ++ Socket.iterate (.sleepElapsed (.error .io))

/-- A connect fails, and so do six attempts after it. -/
def connectRefused : List Socket.Label :=
  Socket.iterate (.stateCommand (.connect ⟨0, 5, 0⟩) (.error .io))
    ++ [0, 5, 10, 25, 50, 50].flatMap refused

/-- The server rejects the join, and the listener sends it again. -/
def rejected (now : Instant) : List Label :=
  polls (joinResult now (.error (.rejected .empty))) 2 ++ [.publish]
    ++ polls (quiet (now + 50)) 3 ++ [.sent 11, .publish]

def joinRejected : List Label := sendJoin ++ [1, 60, 120, 180, 240, 300, 360].flatMap rejected

theorem waitsBySchedule_refused :
    (∃ w, Run (Socket.clocked lastInstant none) (Socket.InputWithin lastInstant 1000 5) .init
        connectRefused w ∧
      (Socket.clockedBackoff lastInstant).waits
        ((Socket.clocked lastInstant none).steps .init connectRefused) =
          [0, 5, 10, 25, 50, 50, 50] ∧
      (Socket.clockedBackoff lastInstant).Scheduled [0, 1, 2, 5, 10]
        ((Socket.clocked lastInstant none).steps .init connectRefused)) ∧
    (∃ w, Run (clocked lastInstant) (fun _ label => InputWithin 1000 5 label) lobbyStart
        joinRejected w ∧
      (clockedBackoff lastInstant).waits ((clocked lastInstant).steps lobbyStart joinRejected) =
        [0, 5, 10, 25, 50, 50, 50] ∧
      (clockedBackoff lastInstant).Scheduled [0, 1, 2, 5, 10]
        ((clocked lastInstant).steps lobbyStart joinRejected)) := by
  constructor
  · obtain ⟨w, hrun, hwaits⟩ := exists_run (M := Socket.clocked lastInstant none)
      (show (Machine.exec _ (Socket.InputWithin lastInstant 1000 5) .init connectRefused).map
        (fun _ => (Socket.clockedBackoff lastInstant).waits
          ((Socket.clocked lastInstant none).steps .init connectRefused)) =
            some [0, 5, 10, 25, 50, 50, 50] by decide +kernel)
    exact ⟨w, hrun, hwaits, (waitsBySchedule (by decide) (by decide)).1 _ _ hrun⟩
  · obtain ⟨w, hrun, hwaits⟩ := exists_run (M := clocked lastInstant)
      (show (Machine.exec _ (fun _ label => InputWithin 1000 5 label) lobbyStart
        joinRejected).map (fun _ => (clockedBackoff lastInstant).waits
          ((clocked lastInstant).steps lobbyStart joinRejected)) =
            some [0, 5, 10, 25, 50, 50, 50] by decide +kernel)
    exact ⟨w, hrun, hwaits, (waitsBySchedule (by decide) (by decide)).2 _ _ _ _ _ hrun⟩

/-- A timeout that fits, while its double does not. -/
def halfway : Duration := 4611686018427387904 * 1000000000

/-- The socket loses its connection, and then it has one again. -/
def socketLost : List Label :=
  polls { quiet 3 with connectivity := ⟨1, [.connected, .disconnected .reconnect]⟩ } 2 ++ [.publish]
    ++ polls { quiet 4 with
      connectivity := ⟨1, [.connected, .disconnected .reconnect, .connected]⟩ } 2 ++ [.publish]

/-- The server rejects the join and the first rejoin, and the socket is lost in the wait after it. -/
def joinHalfway : List Label :=
  [.stateCommand (.join 0 halfway 1)] ++ polls (quiet 0) 3 ++ [.sent 10, .publish]
    ++ polls (joinResult 1 (.error (.rejected .empty))) 2 ++ [.publish]
    ++ polls (quiet 1) 3 ++ [.sent 11, .publish]
    ++ polls (joinResult 2 (.error (.rejected .empty))) 2 ++ [.publish]
    ++ socketLost

/-- The third wait is the thirty years of `tokio`, and shorter than the second. -/
theorem joinHalfway_not_waitsBySchedule :
    ∃ w, Run (clocked lastInstant) Free lobbyStart joinHalfway w ∧
      (clockedBackoff lastInstant).waits ((clocked lastInstant).steps lobbyStart joinHalfway) =
        [0, halfway, farFuture] ∧
      ¬ (clockedBackoff lastInstant).Scheduled [0, 1, 2, 5, 10]
        ((clocked lastInstant).steps lobbyStart joinHalfway) := by
  obtain ⟨w, hrun, hwaits⟩ := exists_run (M := clocked lastInstant)
    (show (Machine.exec _ Free lobbyStart joinHalfway).map (fun _ =>
      (clockedBackoff lastInstant).waits ((clocked lastInstant).steps lobbyStart joinHalfway)) =
        some [0, halfway, farFuture] by decide +kernel)
  refine ⟨w, hrun, hwaits, fun h => ?_⟩
  have hincreasing := h.increasing
  rw [hwaits] at hincreasing
  exact absurd hincreasing (by decide)

/-! ## Overflow -/

/-- The lobby's listener when it is about to poll one branch. -/
def lobbyAt (state : State) (branch : Branch) : World :=
  { World.spawn lobbyListener state 1 with task := .selecting state [branch] [] }

theorem NeverOverflows.branch {last latest : Instant} {timeout : Duration} {w' : World}
    (h : NeverOverflows last latest timeout) (state : State) (branch : Branch) (env : Surroundings)
    (hstate : ∀ r, state.rejoin? = some r → r.joinTimeout ≤ timeout) (hnow : env.now ≤ latest)
    (hstep : machine.step (lobbyAt state branch) (.poll env) = some w') :
    ∀ c ∈ branchComputes env (lobbyAt state branch) state branch, c.fits last = true := by
  have hwithin : (lobbyAt state branch).Within latest timeout := by
    refine ⟨fun _ _ _ hmem => ?_, fun t n ht => ?_⟩
    · cases hmem
    · obtain ⟨r, hr, hcounter⟩ := Option.map_eq_some_iff.mp ht
      cases hcounter
      exact hstate r hr
  have hrun : Run machine (fun _ label => InputWithin latest timeout label) (lobbyAt state branch)
      [.poll env] w' := .single hnow hstep
  exact h _ _ _ hwithin hrun (lobbyAt state branch, .poll env) (by simp [steps])

/-- The timer of a rejoin fires at the latest instant, and a join times out when four attempts have
failed before it. -/
theorem NeverOverflows.fits {last latest : Instant} {timeout : Duration}
    (h : NeverOverflows last latest timeout) :
    latest + timeout ≤ last ∧ timeout * 10 ≤ maxDuration := by
  have hstate : ∀ attempts r, some (⟨timeout, attempts⟩ : Rejoin) = some r →
      r.joinTimeout ≤ timeout := by
    intro attempts r hr
    cases hr
    exact Nat.le_refl _
  constructor
  · have hadd := h.branch (.waitingToRejoin 0 ⟨timeout, 0⟩) .sleep (quiet latest) (hstate 0)
      (Nat.le_refl _) rfl (.add latest timeout)
      (by simp [branchComputes, rejoinComputes, socketJoinComputes, quiet])
    exact of_decide_eq_true hadd
  · have hmul := h.branch (.joining ⟨10, [], timeout, 4⟩) .socketJoined
      (joinResult 0 (.error .timeout)) (hstate 4) (Nat.zero_le _) rfl (.mul timeout 10)
      (List.mem_singleton_self _)
    exact of_decide_eq_true hmul

/-- The steps of a listener never overflow if and only if each timeout can be added to each instant and
multiplied by ten; where there is a `ReconnectStrategy`, the timeout of a connect is not multiplied. -/
theorem neverOverflows_iff (last latest : Instant) (timeout : Duration) :
    (NeverOverflows last latest timeout ↔
      latest + timeout ≤ last ∧ timeout * 10 ≤ maxDuration) ∧
    (∀ strategy, Socket.NeverOverflows strategy last latest timeout ↔
      latest + timeout ≤ last ∧ (strategy = none → timeout * 10 ≤ maxDuration)) := by
  refine ⟨⟨NeverOverflows.fits, fun h => neverOverflows_of_fits h.1 h.2⟩, fun strategy => ?_⟩
  exact ⟨Socket.NeverOverflows.fits, fun h => Socket.neverOverflows_of_fits h.1 h.2⟩

/-- A caller joins with `Duration::MAX`. -/
def joinForever : List Label := [.stateCommand (.join 0 maxDuration 1)] ++ polls (quiet 0) 3

/-- `Socket::connect` accepts a timeout up to the last instant; the server is not there, and the
listener tries again one nanosecond later. -/
def connectForever : List Socket.Label :=
  Socket.iterate (.stateCommand (.connect ⟨0, lastInstant, 0⟩) (.error .io))
    ++ [.elapse 1, .select (.sleepElapsed (.error .io))]

theorem joinForever_overflows :
    (∃ w, Run machine Free lobbyStart joinForever w ∧
      ¬ ∀ x ∈ machine.steps lobbyStart joinForever, ∀ c ∈ computes x.1 x.2,
        c.fits lastInstant = true) ∧
    (∃ w, Run (Socket.machine none) Free .init connectForever w ∧
      ¬ ∀ x ∈ (Socket.machine none).steps .init connectForever,
        ∀ c ∈ Socket.computes none x.1 x.2, c.fits lastInstant = true) := by
  constructor
  · obtain ⟨w, hrun, hfits⟩ := exists_run (M := machine)
      (show (Machine.exec _ Free lobbyStart joinForever).map (fun _ =>
        (machine.steps lobbyStart joinForever).all fun x =>
          (computes x.1 x.2).all (Computation.fits lastInstant)) = some false by decide +kernel)
    exact ⟨w, hrun, by simpa [List.all_eq_false] using hfits⟩
  · obtain ⟨w, hrun, hfits⟩ := exists_run (M := Socket.machine none)
      (show (Machine.exec _ Free .init connectForever).map (fun _ =>
        ((Socket.machine none).steps .init connectForever).all fun x =>
          (Socket.computes none x.1 x.2).all (Computation.fits lastInstant)) = some false
        by decide +kernel)
    exact ⟨w, hrun, by simpa [List.all_eq_false] using hfits⟩

end PhoenixChannels.Channel
