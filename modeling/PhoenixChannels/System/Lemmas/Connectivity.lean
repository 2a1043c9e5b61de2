import PhoenixChannels.Socket.Lemmas.Connectivity
import PhoenixChannels.System.Lemmas.Runs

/-!
# Agreement on the connectivity

A channel listener that waits for the socket to connect, while the socket is connected, has a
connectivity change to read. What can break this is one poll of its `connectivity` branch.
-/

namespace PhoenixChannels

/-! ## A channel listener that waits -/

namespace Channel

def State.waitsForSocket : State → Bool
  | waitingForSocketToConnect _ => true
  | _ => false

/-- The listener waits for the socket to connect. -/
def Task.waitsForSocket : Task → Bool
  | selecting state _ _ => state.waitsForSocket
  | publishing state => state.waitsForSocket
  | _ => false

def Task.disabled : Task → List Branch
  | selecting _ _ disabled => disabled
  | _ => []

def State.isJoined : State → Bool
  | joined _ => true
  | _ => false

/-- How a poll leads to a listener that waits for the socket. -/
inductive WaitCase (env : Surroundings) (w w' : World) : Prop
  | stays : w.task.waitsForSocket = true → w'.seen = w.seen →
      (.connectivity ∈ w'.task.disabled →
        .connectivity ∈ w.task.disabled ∨
          (env.connectivityClosed = true ∧ (env.connectivity.recv w.seen).1 = .empty)) →
      WaitCase env w w'
  | lagged {rejoin rest disabled missed} :
      w.task = .selecting (.waitingForSocketToConnect rejoin) (.connectivity :: rest) disabled →
      (env.connectivity.recv w.seen).1 = .lagged missed → WaitCase env w w'
  | read {state rest disabled connectivity} :
      w.task = .selecting state (.connectivity :: rest) disabled →
      env.connectivity.recv w.seen = (.message connectivity, w'.seen) → w'.task.disabled = [] →
      (connectivity = .connected → state.isJoined = true ∨ ∃ j, state = .joining j) →
      connectivity ≠ .disconnected .shutdown →
      WaitCase env w w'

variable {env : Surroundings} {w w' : World} {state : State} {branch : Branch} {flow : Flow}
variable {read : Option TxId} {now : Instant}

theorem proceed_waitsForSocket (h : (w.proceed flow).task.waitsForSocket = true) :
    ∃ rejoin effects, flow = .next (.waitingForSocketToConnect rejoin) effects := by
  cases flow with
  | next state effects =>
      cases state <;> first | exact ⟨_, _, rfl⟩ | cases h
  | call | exit | panic => cases h

theorem connectivityChanged_waiting {connectivity : Connectivity} {rejoin : Option Rejoin}
    (h : (connectivityChanged now state connectivity).1 = .waitingForSocketToConnect rejoin)
    (hc : connectivity = .connected) : state.isJoined = true ∨ ∃ j, state = .joining j := by
  subst hc
  cases state with
  | joining j => exact .inr ⟨j, rfl⟩
  | joined j => exact .inl rfl
  | waitingForSocketToConnect rejoin => cases rejoin <;> cases h
  | _ => cases h

theorem connectivityChanged_shutdown {rejoin : Option Rejoin} :
    (connectivityChanged now state (.disconnected .shutdown)).1 ≠
      .waitingForSocketToConnect rejoin := by
  cases state <;> exact nofun

theorem joinedResultReceived_not_waiting {joining : Joining} {rejoin : Option Rejoin}
    {result : Except Socket.JoinError JoinedChannelReceivers} :
    (joinedResultReceived now joining result).1 ≠ .waitingForSocketToConnect rejoin := by
  rcases result with error | receivers
  · cases error <;> exact nofun
  · exact nofun

theorem pushReceived_not_waiting {joined : Joined} {push : Push} {rejoin : Option Rejoin} :
    (pushReceived now joined push).1 ≠ .waitingForSocketToConnect rejoin := by
  simp only [pushReceived]
  split <;> exact nofun

theorem updateState_waiting {command : StateCommand} {rejoin : Option Rejoin}
    {effects : List Effect}
    (h : updateState now state command = .next (.waitingForSocketToConnect rejoin) effects) :
    state = .waitingForSocketToConnect rejoin := by
  cases command with
  | join createdAt timeout tx =>
      cases state <;>
        simp only [updateState, join, socketJoinIfNotTimedOut, socketJoin, Flow.next.injEq,
          reduceCtorEq, false_and] at h <;>
        split at h <;> simp [Rejoin.wait] at h
  | leave tx =>
      cases state <;> simp only [updateState, leave, Flow.next.injEq, reduceCtorEq, false_and] at h
      exact h.1

theorem BranchReady.wait_cases {rest disabled : List Branch}
    (htask : w.task = .selecting state (branch :: rest) disabled)
    (h : BranchReady env w state branch w' flow)
    (hw : (w'.proceed flow).task.waitsForSocket = true) : WaitCase env w (w'.proceed flow) := by
  obtain ⟨rejoin, effects, rfl⟩ := proceed_waitsForSocket hw
  generalize hflow : Flow.next (.waitingForSocketToConnect rejoin) effects = flow at h
  cases h with
  | shutdown => cases state <;> cases hflow
  | connectivity hrecv =>
      obtain ⟨hstate, heffects⟩ := Flow.next.inj hflow
      refine .read htask hrecv rfl (connectivityChanged_waiting hstate.symm) ?_
      rintro rfl
      exact connectivityChanged_shutdown hstate.symm
  | socketJoined =>
      exact absurd (Flow.next.inj hflow).1.symm joinedResultReceived_not_waiting
  | socketJoinedClosed => cases hflow
  | left => cases hflow
  | socketLeft => cases hflow
  | sleep => cases hflow
  | stateCommand =>
      obtain rfl := updateState_waiting hflow.symm
      rw [← hflow]
      exact .stays (by rw [htask]; rfl) rfl nofun
  | sendCommand hrx =>
      rename_i joined command rest
      cases command <;> cases hflow
  | push => exact absurd (Flow.next.inj hflow).1.symm pushReceived_not_waiting
  | broadcast => cases hflow

theorem PollStep.wait_cases (h : PollStep env w w' read) (hw : w'.task.waitsForSocket = true) :
    WaitCase env w w' := by
  cases h with
  | breakOk => cases hw
  | round htask | pending htask =>
      refine .stays ?_ rfl fun hmem => .inl (by rw [htask]; exact hmem)
      rw [htask]
      exact hw
  | @mismatch state _ rest disabled _ _ htask hmismatch =>
      cases hmismatch with
      | lagged hrecv =>
          cases state with
          | waitingForSocketToConnect rejoin => exact .lagged htask (by rw [hrecv])
          | _ => cases hw
      | closed hclosed =>
          refine .stays (by rw [htask]; exact hw) rfl ?_
          intro hmem
          rcases List.mem_cons.mp hmem with hbranch | hmem
          · exact .inr (hclosed hbranch.symm)
          · exact .inl (by rw [htask]; exact hmem)
      | broadcastLagged => cases hw
  | ready htask hready => exact hready.wait_cases htask hw

end Channel

namespace System

open Machine

/-! ## The property and its condition -/

/-- While the socket is connected, a channel listener that waits for it to connect can still read a
connectivity change, one that the running handler is about to send included. -/
def AgreesOnConnectivity (s : System) : Prop :=
  s.socket.task.isConnected = true → ∀ c w, s.channels.lookup c = some w →
    w.task.waitsForSocket = true →
      w.seen < (Socket.connectivities s.socket.effects).length ∧ .connectivity ∉ w.task.disabled

/-- A poll of the `connectivity` branch does not give a joined channel the news that the socket is
connected while it is, nor `Lagged` to a channel that waits for the socket. -/
def readsInStep (s : System) : Label → Bool
  | .poll c =>
      match s.channels.lookup c with
      | some w =>
          match w.task, (s.connectivity.recv w.seen).1 with
          | .selecting (.joined _) (.connectivity :: _) _, .message .connected =>
              !s.socket.task.isConnected
          | .selecting (.waitingForSocketToConnect _) (.connectivity :: _) _, .lagged _ => false
          | _, _ => true
      | none => true
  | _ => true

variable {strategy : Option (Nat → Duration)} {ok : System → Label → Prop} {ls : List Label}
variable {s s' : System} {label : Label} {c : JoinReference} {w w' : Channel.World}

/-! ## Every poll is of a branch of its state -/

/-- The branches still to be polled are branches of the state. -/
def PollsBranches (w : Channel.World) : Prop :=
  ∀ state rest disabled, w.task = .selecting state rest disabled →
    ∀ branch ∈ rest, branch ∈ state.branches

theorem ChannelStep.pollsBranches (h : ChannelStep s s' c w label w') (hw : PollsBranches w) :
    PollsBranches w' := by
  have proceeded : ∀ {w : Channel.World} {flow : Channel.Flow}, PollsBranches (w.proceed flow) := by
    intro w flow state rest disabled htask
    cases flow <;> cases htask
  cases h with
  | user | stateCommand | sendCommand => exact hw
  | poll hpoll =>
      cases hpoll with
      | breakOk => intro state rest disabled htask; cases htask
      | round =>
          intro state rest disabled htask
          cases htask
          intro branch hb
          exact (List.mem_filter.mp hb).1
      | pending htask =>
          intro state rest disabled h
          cases h
          exact fun branch hb => hw _ _ _ htask branch (List.mem_cons_of_mem _ hb)
      | mismatch htask hmismatch =>
          intro state rest disabled h
          cases h
          have hrest := fun branch hb => hw _ _ _ htask branch (List.mem_cons_of_mem _ hb)
          cases hmismatch <;> exact hrest
      | ready => exact proceeded
  | forward => intro state rest disabled htask; cases htask
  | fail => exact proceeded
  | publish =>
      intro state rest disabled htask
      cases htask
      exact fun branch hb => hb

theorem pollsBranches_of_run (h : Run (machine strategy) ok init ls s)
    (hw : s.channels.lookup c = some w) : PollsBranches w := by
  refine channel_invariant (I := fun _ => PollsBranches) ?_
    (fun _ _ _ _ _ _ hw h => h.pollsBranches hw) h hw
  intro c listener state seen _ state' rest disabled htask
  cases htask
  exact fun branch hb => hb

/-! ## The invariant -/

/-- The connectivity that channels have seen is the beginning of all that was broadcast. -/
theorem visible_connectivities (s : System) :
    s.connectivity.sent <+: Socket.connectivities s.socket.effects :=
  (List.take_prefix _ _).filterMap _

/-- Where the last change that was broadcast is not the last one of before, a change has been
broadcast in between. -/
theorem lt_of_getLast?_ne {sent all : List Connectivity} {change : Connectivity}
    (hbegins : sent <+: all) (hall : all.getLast? = some change)
    (hsent : sent.getLast? ≠ some change) :
    sent.length < all.length := by
  refine lt_of_le_of_ne hbegins.length_le fun hlength => hsent ?_
  rw [hbegins.eq_of_length hlength]
  exact hall

theorem connectivity_capacity : s.connectivity.capacity = 1 := rfl

theorem connected_iff_last (h : Run (machine strategy) ok init ls s)
    (hrunning : s.socket.task.isRunning = true) :
    s.socket.task.isConnected = true ↔
      (Socket.connectivities s.socket.effects).getLast? = some .connected := by
  obtain ⟨ks, hks⟩ := socket_run h
  obtain ⟨state, hstate⟩ := Option.isSome_iff_exists.mp hrunning
  rw [Socket.lastConnectivity_of_run hks state hstate]
  simp only [Socket.Task.isConnected, Option.isSome_iff_exists, Socket.Task.connection_eq_some,
    hstate, Option.some.injEq]

/-- A listener that waits for the socket has not disabled its `connectivity` branch; where the
socket is connected, it has a change to read. -/
structure CanRead (s : System) (w : Channel.World) : Prop where
  le : w.seen ≤ (Socket.connectivities s.socket.effects).length
  lt : s.socket.task.isConnected = true →
    w.seen < (Socket.connectivities s.socket.effects).length
  enabled : .connectivity ∉ w.task.disabled

/-- A position after changes that are visible and do not end in `Connected`. -/
theorem CanRead.of_visible (h : Run (machine strategy) ok init ls s)
    (hseen : w.seen = s.connectivity.sent.length) (henabled : w.task.disabled = [])
    (hlast : s.socket.task.isConnected = true → s.connectivity.sent.getLast? ≠ some .connected) :
    CanRead s w where
  le := hseen ▸ s.visible_connectivities.length_le
  lt hconnected := hseen ▸ lt_of_getLast?_ne s.visible_connectivities
    ((connected_iff_last h (isRunning_of_isConnected hconnected)).mp hconnected) (hlast hconnected)
  enabled := by simp [henabled]

theorem ChannelStep.canRead (h : ChannelStep s s' c w label w') (hw : s.channels.lookup c = some w)
    (hrun : Run (machine strategy) ok init ls s) (hok : readsInStep s label = true)
    (hrunning : s.socket.task.isRunning = true)
    (ih : w.task.waitsForSocket = true → CanRead s w) (hwaits : w'.task.waitsForSocket = true) :
    CanRead s w' := by
  cases h with
  | user | stateCommand | sendCommand => exact { ih hwaits with }
  | forward htask =>
      rename_i call
      cases call <;> cases hwaits
  | fail htask hdead => rw [hdead] at hrunning; cases hrunning
  | publish htask =>
      have hw := ih (by rw [htask]; exact hwaits)
      exact { hw with enabled := nofun }
  | poll hpoll =>
      cases hpoll.wait_cases hwaits with
      | stays hstays hseen hdisabled =>
          obtain ⟨hle, hlt, henabled⟩ := ih hstays
          refine ⟨hseen ▸ hle, hseen ▸ hlt, fun hmem => ?_⟩
          rcases hdisabled hmem with hmem | hclosed
          · exact henabled hmem
          · simp [surroundings, hrunning] at hclosed
      | lagged htask hrecv =>
          simp only [surroundings] at hrecv
          simp [readsInStep, hw, htask, hrecv] at hok
      | @read state rest disabled connectivity htask hrecv hdisabled hstate =>
          obtain ⟨hsent, hseen⟩ := BroadcastQueue.recv_message connectivity_capacity hrecv
          refine .of_visible hrun hseen hdisabled fun hconnected hnews => ?_
          obtain rfl : connectivity = .connected := Option.some.inj (hsent.symm.trans hnews)
          rcases hstate rfl with hjoined | ⟨joining, rfl⟩
          · cases state with
            | joined joined =>
                simp only [surroundings] at hrecv
                simp [readsInStep, hw, htask, hrecv, hconnected] at hok
            | _ => cases hjoined
          · have hmem := pollsBranches_of_run hrun hw _ _ _ htask _ List.mem_cons_self
            simp [Channel.State.branches] at hmem

/-- What the socket listener does leaves every listener something to read. -/
theorem CanRead.step (hrun : Run (machine strategy) ok init ls s)
    (hrun' : Run (machine strategy) ok init (ls ++ [label]) s')
    (h : SystemStep strategy s label s') (hrunning : s'.socket.task.isRunning = true)
    (hw : CanRead s w) : CanRead s' w := by
  have hbegins : Socket.connectivities s.socket.effects <+: Socket.connectivities s'.socket.effects :=
    h.effects.filterMap _
  refine ⟨le_trans hw.le hbegins.length_le, fun hconnected => ?_, hw.enabled⟩
  by_cases hs : s.socket.task.isConnected = true
  · exact lt_of_lt_of_le (hw.lt hs) hbegins.length_le
  · rw [connected_iff_last hrun (h.running hrunning)] at hs
    rw [connected_iff_last hrun' hrunning] at hconnected
    exact lt_of_le_of_lt hw.le (lt_of_getLast?_ne hbegins hconnected hs)

/-- Where every poll reads in step, every listener that waits can read. -/
theorem canRead_of_run
    (h : Run (machine strategy) (fun s label => readsInStep s label = true) init ls s)
    (hrunning : s.socket.task.isRunning = true) (hw : s.channels.lookup c = some w)
    (hwaits : w.task.waitsForSocket = true) : CanRead s w := by
  refine h.invariant_of_run (I := fun s => s.socket.task.isRunning = true →
    ∀ c w, s.channels.lookup c = some w → w.task.waitsForSocket = true → CanRead s w) ?_ ?_
    hrunning c w hw hwaits
  · intro _ c w hw
    rw [lookup_init] at hw
    cases hw
  intro ls s label s' hrun ih hok hs hrunning' c w' hw' hwaits
  have hstep := step_cases hs
  have hrunning := hstep.running hrunning'
  refine .step hrun (.snoc hrun hok hs) hstep hrunning' ?_
  cases hstep.channel_cases hw' with
  | kept hw => exact ih hrunning c w' hw hwaits
  | stepped hw h => exact h.canRead hw hrun hok hrunning (ih hrunning c _ hw) hwaits
  | @spawned spawn state sent heffect h =>
      subst h
      obtain ⟨ks, hks⟩ := socket_run hrun
      cases state with
      | waitingForSocketToConnect rejoin =>
          exact .of_visible hrun rfl rfl fun _ =>
            Socket.spawnsAgree_of_run hks _ _ _ _ _ heffect
      | _ => cases hwaits

end System

end PhoenixChannels
