import PhoenixChannels.Socket.Lemmas.Terminations
import PhoenixChannels.System.Lemmas.Connectivity
import PhoenixChannels.System.Lemmas.Oneshots

/-!
# What the end of the socket listener leaves behind

The joins and calls that are pending when the socket listener terminates, and the channel listeners
that hear of it.
-/

namespace PhoenixChannels

def ChannelStateCommand.joinTx? : ChannelStateCommand → Option TxId
  | join j => some j.joinedTx
  | leave _ => none

/-- A listener at its `select!`, whose shutdown nobody has asked for, and whose other branches are
disabled or can give no match any more. -/
def Channel.OnlyShutdownMoves (env : Surroundings) (w : World) : Prop :=
  w.shutdownRx = false ∧ w.dropped = false ∧ ∃ state rest disabled,
    w.task = .selecting state rest disabled ∧ .shutdown ∈ state.branches ∧
      ∀ branch ∈ state.branches, branch ≠ .shutdown →
        branch ∈ disabled ∨ ∃ w' state', w.pollBranch env state branch = .mismatch w' state'

theorem Channel.onlyShutdownMoves_of_disabled {env : Surroundings} {w : World}
    (hshutdown : w.shutdownRx = false) (hdropped : w.dropped = false)
    (hwaits : w.task.waitsForSocket = true) (hdisabled : .connectivity ∈ w.task.disabled) :
    OnlyShutdownMoves env w := by
  cases htask : w.task with
  | selecting state rest disabled =>
      rw [htask] at hwaits hdisabled
      cases state with
      | waitingForSocketToConnect rejoin =>
          refine ⟨hshutdown, hdropped, _, rest, disabled, htask, List.mem_cons_self, ?_⟩
          intro branch hmem hne
          simp only [State.branches, List.mem_cons, List.not_mem_nil, or_false] at hmem
          exact .inl (hmem.resolve_left hne ▸ hdisabled)
      | _ => cases hwaits
  | _ =>
      rw [htask] at hdisabled
      cases hdisabled

namespace System

open Machine

variable {strategy : Option (Nat → Duration)} {ok : System → Label → Prop} {ls : List Label}
variable {s s' : System} {label : Label} {c : JoinReference} {w w' : Channel.World} {tx : TxId}

/-! ## The property and its condition -/

/-- The senders of the joins and calls in the queues of the socket. -/
def pendingRx (s : System) : List TxId :=
  s.channelStateCommandRx.filterMap ChannelStateCommand.joinTx?
    ++ s.channelSendCommandRx.filterMap ChannelSendCommand.tx?

/-- The senders of all joins and calls that the socket listener has to answer. -/
def pendingTxs (s : System) : List TxId := s.socket.heldTxs ++ s.pendingRx

/-- The end of the socket listener settles what waits for it: from the shutdown on no pending join
or call is dropped, its channels are told, and none of them is left waiting. -/
structure TerminationSettles (strategy : Option (Nat → Duration)) (ls : List Label) (s : System) :
    Prop where
  answered : ∀ x ∈ (machine strategy).steps init ls, ∀ s', (machine strategy).step x.1 x.2 = some s' →
    s'.socket.task.ends = true → ∀ tx ∈ x.1.pendingTxs, tx ∈ s'.pendingTxs ∨
      ∃ effect ∈ s'.socket.effects, effect.settled? = some tx
  broadcast : ∀ result, s.socket.task = .exited result →
    s.connectivity.sent.getLast? = some (.disconnected .shutdown)
  channels : ∀ result, s.socket.task = .exited result → ∀ c w, s.channels.lookup c = some w →
    ¬ Channel.OnlyShutdownMoves s.surroundings w

/-- The socket listener is told to shut down only while it is connected, meets no error that ends
it, and stops without joins and calls in its queues. A connectivity change is broadcast only when
the channels that wait for the socket have read the one before. -/
def endsSettled (s : System) : Label → Bool
  | .select event =>
      match s.receive event with
      | some (input, _) => Socket.endsConnected s.socket (.select input) &&
          (match event with
            | .stop => s.pendingRx.isEmpty
            | _ => true)
      | none => true
  | .deliver =>
      match s.socket.effects[s.delivered]? with
      | some (.connectivity _) => (Dict.values s.channels).all (fun w =>
          !w.task.waitsForSocket || w.seen = s.connectivity.sent.length)
      | _ => true
  | _ => true

/-! ## Pending joins and calls -/

theorem endsConnected_of_select {event : SocketEvent} {input : Socket.Input} {taken : System}
    (hok : endsSettled s (.select event) = true) (h : Receive s event input taken) :
    Socket.endsConnected s.socket (.select input) = true := by
  simp only [endsSettled, h.eq, Bool.and_eq_true] at hok
  exact hok.1

theorem heldTxs_of_ends {v : Socket.World} (h : v.task.ends = true) : v.heldTxs = [] := by
  have hnone : v.task.connection = none := by
    cases hc : v.task.connection with
    | none => rfl
    | some connected =>
        have hstate := Socket.Task.connection_eq_some.mp hc
        cases htask : v.task with
        | exited => simp [htask, Socket.Task.state] at hstate
        | _ => rw [htask] at h hstate; simp [Socket.Task.ends, hstate, Socket.State.serves] at h
  simp [Socket.World.heldTxs, hnone]

/-- An iteration to a listener that shuts down or ends drops no pending join or call. -/
theorem Receive.settles {event : SocketEvent} {input : Socket.Input} {taken : System}
    {socket : Socket.World} (h : Receive s event input taken)
    (hstep : (Socket.machine strategy).step s.socket (.select input) = some socket)
    (hok : endsSettled s (.select event) = true) (hends : socket.task.ends = true)
    (htx : tx ∈ s.pendingTxs) :
    tx ∈ (taken.setSocket socket).pendingTxs ∨ ∃ effect ∈ socket.effects, effect.settled? = some tx := by
  cases Socket.ends_case hstep (endsConnected_of_select hok h) hends with
  | kept hbefore hstop =>
      obtain rfl := hstop input rfl
      cases h
      have hrx : s.pendingRx = [] := by
        simp only [endsSettled, receive, Bool.and_eq_true, List.isEmpty_iff] at hok
        exact hok.2
      rw [pendingTxs, heldTxs_of_ends hbefore, hrx] at htx
      cases htx
  | @shutdown c outcome start htask hlabel htask' heffects =>
      cases hlabel
      cases h with
      | @stateCommand outcome command rest hrx =>
          rcases List.mem_append.mp htx with htx | htx
          · obtain ⟨connected, hconnected, hmem⟩ := Socket.World.mem_heldTxs.mp htx
            rw [htask] at hconnected
            cases hconnected
            obtain ⟨effect, heffect, hsettled⟩ := Socket.sendDisconnected_settles hmem
            exact .inr ⟨effect, heffects ▸ List.mem_append_right _ heffect, hsettled⟩
          · left
            have hset : System.setSocket { s with stateCommandRx := rest } socket =
                { s with stateCommandRx := rest, socket } := by
              simp [setSocket, Socket.Task.isRunning, htask']
            rw [hset]
            exact List.mem_append_right _ htx

/-- A step to a socket listener that shuts down or has ended drops no pending join or call. -/
theorem SystemStep.settles (h : SystemStep strategy s label s') (hok : endsSettled s label = true)
    (hends : s'.socket.task.ends = true) (htx : tx ∈ s.pendingTxs) :
    tx ∈ s'.pendingTxs ∨ ∃ effect ∈ s'.socket.effects, effect.settled? = some tx := by
  cases h with
  | select hreceive hstep =>
      rw [setSocket_socket] at hends ⊢
      exact hreceive.settles hstep hok hends htx
  | user _ h => cases h <;> exact .inl htx
  | @poll c w w' read => cases read <;> exact .inl htx
  | forwardState | forwardSend =>
      left
      simp only [pendingTxs, pendingRx, resumed, setChannel, List.filterMap_append,
        List.mem_append] at htx ⊢
      tauto
  | pushed | pushedClosed => cases hends
  | publish htask =>
      left
      simpa [pendingTxs, pendingRx, Socket.World.heldTxs, Socket.Task.connection, htask] using htx
  | elapse | spawned | delivered | fail | publishChannel => exact .inl htx

/-! ## The channels that wait for the socket -/

/-- A listener that waits for the socket is at most one connectivity change behind, and can read it;
it has not read the shutdown. -/
structure UpToDate (s : System) (w : Channel.World) : Prop where
  le : w.seen ≤ s.connectivity.sent.length
  near : s.connectivity.sent.length ≤ w.seen + 1
  enabled : .connectivity ∉ w.task.disabled
  unread : (Socket.connectivities s.socket.effects).getLast? = some (.disconnected .shutdown) →
    w.seen < (Socket.connectivities s.socket.effects).length

/-- What was sent to the channels before the shutdown is not all that was sent. -/
theorem UpToDate.of_visible (hseen : w.seen = s.connectivity.sent.length)
    (henabled : w.task.disabled = [])
    (hlast : s.connectivity.sent.getLast? ≠ some (.disconnected .shutdown)) : UpToDate s w where
  le := Nat.le_of_eq hseen
  near := hseen ▸ Nat.le_succ _
  enabled := by simp [henabled]
  unread hall := hseen ▸ lt_of_getLast?_ne s.visible_connectivities hall hlast

theorem UpToDate.recv_ne_lagged (h : UpToDate s w) {missed : Nat} :
    (s.connectivity.recv w.seen).1 ≠ .lagged missed := by
  intro hrecv
  have hnear := h.near
  unfold BroadcastQueue.recv at hrecv
  rw [connectivity_capacity, if_neg (Nat.not_lt.mpr hnear)] at hrecv
  split at hrecv <;> cases hrecv

theorem UpToDate.recv_ne_empty (h : UpToDate s w)
    (hlast : s.connectivity.sent.getLast? = some (.disconnected .shutdown))
    (hall : s.connectivity.sent = Socket.connectivities s.socket.effects) :
    (s.connectivity.recv w.seen).1 ≠ .empty := by
  rw [ne_eq, BroadcastQueue.recv_empty_iff, Nat.not_le, hall]
  exact h.unread (hall ▸ hlast)

/-- When the socket listener has ended, its channels have been told that it shut down. -/
theorem broadcast_of_run (h : Run (machine strategy) (fun s l => endsSettled s l = true) init ls s)
    {result : Except Socket.ShutdownError Unit} (hexited : s.socket.task = .exited result) :
    s.connectivity.sent = Socket.connectivities s.socket.effects ∧
      s.connectivity.sent.getLast? = some (.disconnected .shutdown) := by
  have hother : ∀ (v : Socket.World) (l : Socket.Label), (∀ input, l ≠ .select input) →
      Socket.endsConnected v l = true := by
    intro v l hl
    cases l with
    | select input => exact absurd rfl (hl input)
    | _ => rfl
  obtain ⟨ks, hks⟩ := socket_run_of (fun v l => Socket.endsConnected v l = true) hother
    (fun s event input taken hok hreceive _ => endsConnected_of_select hok hreceive) h
  have hdelivered := delivered_of_run h (by simp [hexited])
  have hall : s.connectivity.sent = Socket.connectivities s.socket.effects := by
    simp [connectivity, visible, hdelivered]
  exact ⟨hall, hall ▸ Socket.shutdown_of_run hks (by rw [hexited]; rfl)⟩

/-- What becomes of the connectivity changes that channels see. -/
theorem SystemStep.connectivity_cases (h : SystemStep strategy s label s')
    (hle : s.delivered ≤ s.socket.effects.length) :
    s'.connectivity.sent = s.connectivity.sent ∨
      ∃ change, label = .deliver ∧ s.socket.effects[s.delivered]? = some (.connectivity change) ∧
        s'.connectivity.sent = s.connectivity.sent ++ [change] := by
  rcases h.visible_cases hle with hsame | ⟨effect, heffect, hlabel, _, hvisible⟩
  · exact .inl (by simp only [connectivity, hsame])
  · have hsent : s'.connectivity.sent = s.connectivity.sent ++ Socket.connectivities [effect] := by
      simp [connectivity, hvisible]
    cases hchange : effect.connectivity? with
    | none =>
        left
        simp [hsent, Socket.connectivities, hchange]
    | some change =>
        obtain rfl : effect = .connectivity change := by
          cases effect <;> cases hchange
          rfl
        exact .inr ⟨change, hlabel, heffect, hsent⟩

/-- What the others do leaves a listener that waits up to date. -/
theorem UpToDate.step (hrun : Run (machine strategy) ok init ls s)
    (h : SystemStep strategy s label s')
    (hread : ∀ change, label = .deliver →
      s.socket.effects[s.delivered]? = some (.connectivity change) →
      w.seen = s.connectivity.sent.length)
    (hw : UpToDate s w) : UpToDate s' w := by
  have hle := delivered_le hrun
  have hall : Socket.connectivities s.socket.effects <+: Socket.connectivities s'.socket.effects :=
    h.effects.filterMap _
  have hvisible := s.visible_connectivities.length_le
  have hunread : (Socket.connectivities s'.socket.effects).getLast? =
      some (.disconnected .shutdown) →
      w.seen < (Socket.connectivities s'.socket.effects).length := by
    intro hlast
    by_cases hold : (Socket.connectivities s.socket.effects).getLast? =
        some (.disconnected .shutdown)
    · exact Nat.lt_of_lt_of_le (hw.unread hold) hall.length_le
    · exact Nat.lt_of_le_of_lt (Nat.le_trans hw.le hvisible) (lt_of_getLast?_ne hall hlast hold)
  rcases h.connectivity_cases hle with hsent | ⟨change, hlabel, heffect, hsent⟩
  · exact ⟨hsent ▸ hw.le, hsent ▸ hw.near, hw.enabled, hunread⟩
  · have hread := hread change hlabel heffect
    refine ⟨?_, ?_, hw.enabled, hunread⟩
    · rw [hsent, hread]
      simp
    · rw [hsent, hread]
      simp

theorem failed_not_waiting {call : Channel.SocketCall} {error : Socket.ShutdownError}
    {rejoin : Option Channel.Rejoin} {effects : List Channel.Effect} :
    call.failed error ≠ .next (.waitingForSocketToConnect rejoin) effects := by
  cases call with
  | join state => cases state <;> exact nofun
  | _ => exact nofun

theorem ChannelStep.upToDate (h : ChannelStep s s' c w label w')
    (hrun : Run (machine strategy) (fun s l => endsSettled s l = true) init ls s)
    (hpanicked : s.socket.task ≠ .panicked) (ih : w.task.waitsForSocket = true → UpToDate s w)
    (hwaits : w'.task.waitsForSocket = true) : UpToDate s w' := by
  cases h with
  | user | stateCommand | sendCommand => exact { ih hwaits with }
  | @forward call htask => cases call <;> cases hwaits
  | fail htask hdead hflow =>
      obtain ⟨rejoin, effects, rfl⟩ := Channel.proceed_waitsForSocket hwaits
      rcases hflow with ⟨error, _, hflow⟩ | ⟨reason, _, hflow⟩
      · exact absurd hflow.symm failed_not_waiting
      · cases hflow
  | publish htask =>
      have hw := ih (by rw [htask]; exact hwaits)
      exact { hw with enabled := by exact List.not_mem_nil }
  | poll hpoll =>
      cases hpoll.wait_cases hwaits with
      | stays hstays hseen hdisabled =>
          have hw := ih hstays
          refine ⟨hseen ▸ hw.le, hseen ▸ hw.near, fun hmem => ?_, hseen ▸ hw.unread⟩
          rcases hdisabled hmem with hmem | ⟨hclosed, hempty⟩
          · exact hw.enabled hmem
          · cases htask : s.socket.task with
            | exited result =>
                obtain ⟨hall, hlast⟩ := broadcast_of_run hrun htask
                exact hw.recv_ne_empty hlast hall hempty
            | panicked => exact hpanicked htask
            | _ => simp [surroundings, Socket.Task.isRunning, htask, Socket.Task.state] at hclosed
      | lagged htask hrecv =>
          exact absurd hrecv (ih (by rw [htask]; rfl)).recv_ne_lagged
      | read htask hrecv hdisabled hstate hne =>
          obtain ⟨hsent, hseen⟩ := BroadcastQueue.recv_message connectivity_capacity hrecv
          refine .of_visible hseen hdisabled ?_
          intro hlast
          exact hne (Option.some.inj (hsent.symm.trans hlast))

/-- The listener that a step leaves, if it waits, had read all that was sent when a change is sent. -/
theorem ChannelChange.read {change : Connectivity}
    (h : ChannelChange s s' c label w') (hok : endsSettled s label = true)
    (hwaits : w'.task.waitsForSocket = true) (hlabel : label = .deliver)
    (heffect : s.socket.effects[s.delivered]? = some (.connectivity change)) :
    w'.seen = s.connectivity.sent.length := by
  subst hlabel
  have hread : ∀ w, s.channels.lookup c = some w → w.task.waitsForSocket = true →
      w.seen = s.connectivity.sent.length := by
    intro w hw hwaits
    simp only [endsSettled, heffect, List.all_eq_true] at hok
    simpa [hwaits] using hok w (Dict.mem_values.mpr ⟨c, hw⟩)
  cases h with
  | kept hw => exact hread w' hw hwaits
  | @stepped w hw h =>
      cases h with
      | user | stateCommand | sendCommand => exact hread w hw hwaits
  | spawned hspawned =>
      rw [heffect] at hspawned
      cases hspawned

theorem SystemStep.panicked (h : SystemStep strategy s label s') (hs : s.socket.task = .panicked) :
    s'.socket.task = .panicked := by
  have stopped : ∀ {v : Socket.World} {l : Socket.Label},
      (Socket.machine strategy).step s.socket l = some v → v.task = .panicked := by
    intro v l hstep
    cases Socket.step_cases hstep with
    | elapse => exact hs
    | connected htask | unconnected htask | pushed htask | publish htask => simp [htask] at hs
  cases h.socket_cases with
  | kept heq => exact heq ▸ hs
  | stepped _ hstep => exact stopped hstep
  | selected _ _ hstep => exact stopped hstep

theorem upToDate_of_run (h : Run (machine strategy) (fun s l => endsSettled s l = true) init ls s)
    (hpanicked : s.socket.task ≠ .panicked) (hw : s.channels.lookup c = some w)
    (hwaits : w.task.waitsForSocket = true) : UpToDate s w := by
  refine h.invariant_of_run (I := fun s => s.socket.task ≠ .panicked →
    ∀ c w, s.channels.lookup c = some w → w.task.waitsForSocket = true → UpToDate s w) ?_ ?_
    hpanicked c w hw hwaits
  · intro _ c w hw
    rw [lookup_init] at hw
    cases hw
  intro ls s label s' hrun ih hok hs hpanicked' c w' hw' hwaits
  have hstep := step_cases hs
  have hpanicked := mt hstep.panicked hpanicked'
  have hchange := hstep.channel_cases hw'
  refine .step hrun hstep (fun change => hchange.read hok hwaits) ?_
  cases hchange with
  | kept hw => exact ih hpanicked c w' hw hwaits
  | stepped hw h => exact h.upToDate hrun hpanicked (ih hpanicked c _ hw) hwaits
  | @spawned spawn state sent heffect h =>
      subst h
      obtain ⟨ks, hks⟩ := socket_run hrun
      cases state with
      | waitingForSocketToConnect rejoin =>
          refine .of_visible rfl rfl ?_
          exact Socket.spawnsServed_of_run hks _ _ _ _ _ heffect
      | _ => cases hwaits

/-! ## The channels that take commands -/

/-- The branch of the commands is disabled only when no command can come any more. -/
def TakesCommands (w : Channel.World) : Prop := .stateCommand ∈ w.task.disabled → w.dropped = true

theorem dropped_of_mismatch {env : Channel.Surroundings} {state state' : Channel.State}
    (h : w.pollBranch env state .stateCommand = .mismatch w' state') : w.dropped = true := by
  simp only [Channel.World.pollBranch] at h
  split at h
  · cases h
  · split at h
    · assumption
    · cases h

theorem ChannelStep.takesCommands (h : ChannelStep s s' c w label w') (hw : TakesCommands w) :
    TakesCommands w' := by
  have proceeded : ∀ {w : Channel.World} {flow : Channel.Flow}, TakesCommands (w.proceed flow) := by
    intro w flow hmem
    cases flow <;> cases hmem
  cases h with
  | user hasked => exact fun hmem => hasked.stays (hw hmem)
  | stateCommand | sendCommand => exact hw
  | poll hpoll =>
      cases hpoll with
      | breakOk => exact nofun
      | round htask | pending htask =>
          intro hmem
          exact hw (by rw [htask]; exact hmem)
      | mismatch htask hmismatch hpolled =>
          intro hmem
          have hdropped : w.dropped = true := by
            rcases List.mem_cons.mp hmem with hbranch | hmem
            · subst hbranch
              exact dropped_of_mismatch hpolled
            · exact hw (by rw [htask]; exact hmem)
          cases hmismatch <;> exact hdropped
      | ready => exact proceeded
  | forward => exact nofun
  | fail => exact proceeded
  | publish => exact nofun

theorem takesCommands_of_run (h : Run (machine strategy) ok init ls s)
    (hw : s.channels.lookup c = some w) : TakesCommands w :=
  channel_invariant (I := fun _ => TakesCommands) (fun _ _ _ _ _ => nofun)
    (fun _ _ _ _ _ _ hw h => h.takesCommands hw) h hw

/-- When the socket listener has ended, no channel listener can be moved only by its shutdown. -/
theorem not_onlyShutdownMoves_of_run
    (h : Run (machine strategy) (fun s l => endsSettled s l = true) init ls s)
    {result : Except Socket.ShutdownError Unit} (hexited : s.socket.task = .exited result)
    (hw : s.channels.lookup c = some w) : ¬ Channel.OnlyShutdownMoves s.surroundings w := by
  rintro ⟨_, hdropped, state, rest, disabled, htask, hshutdown, hmoves⟩
  have hcommands := takesCommands_of_run h hw
  have command : .stateCommand ∉ state.branches := by
    intro hmem
    rcases hmoves _ hmem (by simp) with hdisabled | ⟨w', state', hpolled⟩
    · have := hcommands (by rw [htask]; exact hdisabled)
      simp [hdropped] at this
    · have := dropped_of_mismatch hpolled
      simp [hdropped] at this
  cases state with
  | waitingForSocketToConnect rejoin =>
      have hup := upToDate_of_run h (by simp [hexited]) hw (by rw [htask]; rfl)
      obtain ⟨hall, hlast⟩ := broadcast_of_run h hexited
      rcases hmoves .connectivity (by simp [Channel.State.branches]) (by simp) with
        hdisabled | ⟨w', state', hpolled⟩
      · exact hup.enabled (by rw [htask]; exact hdisabled)
      · simp only [Channel.World.pollBranch, surroundings] at hpolled
        split at hpolled
        · cases hpolled
        · rename_i hrecv
          exact hup.recv_ne_lagged (by rw [hrecv])
        · rename_i hrecv
          exact hup.recv_ne_empty hlast hall (by rw [hrecv])
  | shuttingDown | shutDown => cases hshutdown
  | _ => exact command (by simp [Channel.State.branches])

end System

end PhoenixChannels
