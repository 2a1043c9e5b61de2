import PhoenixChannels.Lib.Announcement
import PhoenixChannels.System.Lemmas.Runs

/-!
# Results of calls and the status

The `Ok` that a caller of `connect`, `disconnect`, `join` or `leave` finds, and the status of the
socket or the channel at that time.
-/

namespace PhoenixChannels

/-! ## The property and its condition -/

/-- The effect that tells the caller of `request`, who waits on `tx`, of success. -/
def Socket.Effect.succeeds (tx : TxId) : Request → Effect → Bool
  | .connect _, .connectedTx tx' (.ok ()) => tx' = tx
  | .disconnect, .disconnectedTx tx' => tx' = tx
  | _, _ => false

def Channel.Effect.succeeds (tx : TxId) : Request → Effect → Bool
  | .channelJoin _ _, .joinedTx tx' (.ok _) => tx' = tx
  | .channelLeave _, .leftTx tx' (.ok ()) => tx' = tx
  | _, _ => false

/-- The status is one that the success of `request` establishes. -/
def Socket.Status.shows (status : Status) : Request → Bool
  | .connect _ => status = .connected
  | .disconnect => status ≠ .connected
  | _ => false

def Channel.Status.isUnjoined : Status → Bool
  | joining | waitingToRejoin _ | joined | leaving => false
  | _ => true

def Channel.Status.shows (status : Status) : Request → Bool
  | .channelJoin _ _ => status = .joined
  | .channelLeave _ => status.isUnjoined
  | _ => false

namespace System

open Machine History

/-- The caller of `request` can find its `Ok`. -/
def succeeded (s : System) (tx : TxId) (request : Request) : Bool :=
  match request.channel? with
  | none => s.visible.any (Socket.Effect.succeeds tx request)
  | some c => (s.channels.lookup c).any fun w => w.effects.any (Channel.Effect.succeeds tx request)

/-- `status()` of the socket or the channel of `request`. -/
def shows (s : System) (request : Request) : Bool :=
  match request.channel? with
  | none => s.socket.status.shows request
  | some c => (s.channels.lookup c).any fun w => w.status.shows request

/-- The listener of the socket or the channel of `request` sets its status. -/
def Label.publishes (request : Request) : Label → Bool
  | .publish => request.channel? = none
  | .publishChannel c => request.channel? = some c
  | _ => false

/-- The call whose caller takes an `Ok`, with its oneshot channel. -/
def observed (s : System) : Label → Option (TxId × Request)
  | .advance i =>
      match s.operations[i]? with
      | some ⟨request, _, .waiting tx _⟩ =>
          if s.succeeded tx request then some (tx, request) else none
      | _ => none
  | _ => none

/-- When a caller takes an `Ok`, the status has shown what it established since the `Ok` came. -/
def ResultsShown (steps : List (System × Label)) : Prop :=
  Always (fun past (s, label) => ∀ tx request, s.observed label = some (tx, request) →
    ShownSince (fun y => y.succeeded tx request = true) (fun y => y.shows request = true) past s)
    steps

/-- When a caller takes an `Ok`, the listener has set its status since the `Ok` was there, or the
status is right as it is. -/
def ResultsPublished (steps : List (System × Label)) : Prop :=
  Always (fun past (s, label) => ∀ tx request, s.observed label = some (tx, request) →
    AnnouncedSince (fun y => y.succeeded tx request = true)
      (fun l => l.publishes request = true) past ∨ s.shows request = true) steps

end System

/-! ## The socket listener -/

namespace Socket

variable {strategy : Option (Nat → Duration)} {now : Instant} {fresh : TxId} {state : State}
variable {input : Input} {iteration : Iteration} {tx : TxId} {request : Request} {effect : Effect}

theorem succeeds_cases (h : effect.succeeds tx request = true) :
    (∃ timeout, request = .connect timeout ∧ effect = .connectedTx tx (.ok ())) ∨
      request = .disconnect ∧ effect = .disconnectedTx tx := by
  unfold Effect.succeeds at h
  split at h
  · exact .inl ⟨_, rfl, by rw [of_decide_eq_true h]⟩
  · exact .inr ⟨rfl, by rw [of_decide_eq_true h]⟩
  · cases h

theorem connect_succeeds {cn : Connect} {outcome : ConnectOutcome}
    (h : .connectedTx tx (.ok ()) ∈
      (World.outcome (Iteration.ofPanics (connect strategy now state cn outcome))).2) :
    ∃ c, (World.outcome (Iteration.ofPanics (connect strategy now state cn outcome))).1 =
      .publishing (.connected c) := by
  cases state with
  | connected c => exact ⟨c, rfl⟩
  | neverConnected | disconnected =>
      cases outcome with
      | connected => exact ⟨_, rfl⟩
      | error | timeout => simp [connect, socketConnect, Iteration.ofPanics, World.outcome] at h
  | waitingToReconnect | shuttingDown | shutDown =>
      simp [connect, Iteration.ofPanics, World.outcome] at h

theorem disconnect_succeeds : ((disconnect state tx).1.status.shows .disconnect) = true := by
  cases state <;> rfl

/-- An iteration that tells a caller of success leads to a state that shows it. -/
theorem select_succeeds (h : select strategy now fresh state input = some iteration)
    (hmem : effect ∈ (World.outcome iteration).2) (hsucceeds : effect.succeeds tx request = true) :
    ∃ state', (World.outcome iteration).1 = .publishing state' ∧
      state'.status.shows request = true := by
  have hcause : EffectCause now state input effect := by
    cases state with
    | connected c => exact (select_connected h).cause hmem
    | _ => exact (select_unconnected (by simp) h).cause hmem
  rcases succeeds_cases hsucceeds with ⟨timeout, rfl, rfl⟩ | ⟨rfl, rfl⟩
  · cases hcause with
    | quiet hq =>
        obtain ⟨cn, outcome, rfl, _⟩ := hq.answersConnect rfl
        simp only [select] at h
        split at h <;> cases h
        obtain ⟨c, hc⟩ := connect_succeeds hmem
        exact ⟨_, hc, rfl⟩
  · cases hcause with
    | quiet hq => cases hq.quiet
    | disconnected =>
        simp only [select] at h
        split at h <;> cases h
        exact ⟨_, rfl, disconnect_succeeds⟩

end Socket

/-! ## A channel listener -/

namespace Channel

variable {env : Surroundings} {w w' : World} {state : State} {branch : Branch} {flow : Flow}
variable {now : Instant} {tx : TxId} {request : Request} {effect : Effect}

theorem succeeds_cases (h : effect.succeeds tx request = true) :
    (∃ c timeout payload, request = .channelJoin c timeout ∧ effect = .joinedTx tx (.ok payload)) ∨
      ∃ c, request = .channelLeave c ∧ effect = .leftTx tx (.ok ()) := by
  unfold Effect.succeeds at h
  split at h
  · exact .inl ⟨_, _, _, rfl, by rw [of_decide_eq_true h]⟩
  · exact .inr ⟨_, rfl, by rw [of_decide_eq_true h]⟩
  · cases h

/-- Whoever is told of success is told of what the next state shows. -/
def Flow.Shows (tx : TxId) (request : Request) : Flow → Prop
  | next state effects => ∀ effect ∈ effects, effect.succeeds tx request = true →
      state.status.shows request = true
  | exit _ effects => ∀ effect ∈ effects, effect.succeeds tx request = false
  | call _ | panic _ => True

theorem not_succeeds_joinError {txs : List TxId} {error : JoinError}
    (h : effect ∈ sendJoinPayloadToChannelTxs txs (.error error)) :
    effect.succeeds tx request = false := by
  obtain ⟨tx', _, rfl⟩ := List.mem_map.mp h
  cases request <;> rfl

theorem not_succeeds_leaveError {txs : List TxId} {error : LeaveError}
    (h : effect ∈ sendToChannelTxs txs (.error error)) : effect.succeeds tx request = false := by
  obtain ⟨tx', _, rfl⟩ := List.mem_map.mp h
  cases request <;> rfl

theorem shows_of_leavers (txs : List TxId) (result : Except LeaveError Unit)
    (hstate : state.status.isUnjoined = true) (h : effect ∈ sendToChannelTxs txs result)
    (hsucceeds : effect.succeeds tx request = true) : state.status.shows request = true := by
  obtain ⟨tx', _, rfl⟩ := List.mem_map.mp h
  rcases succeeds_cases hsucceeds with ⟨_, _, _, _, heq⟩ | ⟨c, rfl, _⟩
  · cases heq
  · exact hstate

theorem shows_connectivityChanged {connectivity : Connectivity} :
    (Flow.next (connectivityChanged now state connectivity).1
      (connectivityChanged now state connectivity).2).Shows tx request := by
  intro effect hmem hsucceeds
  cases state with
  | leaving leaving =>
      rcases connectivity with _ | d
      · exact shows_of_leavers _ _ rfl hmem hsucceeds
      · cases d <;> exact shows_of_leavers _ _ rfl hmem hsucceeds
  | joining joining =>
      rcases connectivity with _ | d
      · rw [not_succeeds_joinError hmem] at hsucceeds
        cases hsucceeds
      · cases d <;>
          · rw [not_succeeds_joinError hmem] at hsucceeds
            cases hsucceeds
  | waitingForSocketToConnect rejoin =>
      rcases connectivity with _ | d
      · cases rejoin <;> cases hmem
      · cases d <;> cases hmem
  | _ =>
      rcases connectivity with _ | d
      · cases hmem
      · cases d <;> cases hmem

theorem shows_shutdown :
    (Flow.next (shutdown state).1 (shutdown state).2).Shows tx request := by
  intro effect hmem hsucceeds
  cases state with
  | leaving leaving => exact shows_of_leavers _ _ rfl hmem hsucceeds
  | joining joining =>
      rw [not_succeeds_joinError hmem] at hsucceeds
      cases hsucceeds
  | _ => cases hmem

theorem shows_socketShutdown {error : Socket.ShutdownError} :
    (socketShutdown state error).Shows tx request := by
  cases state with
  | leaving leaving => exact fun effect hmem => not_succeeds_leaveError hmem
  | joining joining => exact fun effect hmem => not_succeeds_joinError hmem
  | _ => exact fun effect hmem => by cases hmem

theorem shows_joinedResultReceived {joining : Joining}
    {result : Except Socket.JoinError JoinedChannelReceivers} :
    (Flow.next (joinedResultReceived now joining result).1
      (joinedResultReceived now joining result).2).Shows tx request := by
  intro effect hmem hsucceeds
  have rejected : ∀ {error : JoinError},
      effect ∉ sendJoinPayloadToChannelTxs joining.channelJoinedTxs (.error error) := by
    intro error hmem
    rw [not_succeeds_joinError hmem] at hsucceeds
    cases hsucceeds
  rcases result with error | receivers
  · cases error with
    | rejected payload =>
        rcases List.mem_append.mp hmem with hmem | hmem
        · obtain rfl := List.mem_singleton.mp hmem
          cases request <;> cases hsucceeds
        · exact absurd hmem rejected
    | _ => exact absurd hmem rejected
  · obtain ⟨tx', _, rfl⟩ := List.mem_map.mp hmem
    rcases succeeds_cases hsucceeds with ⟨_, _, _, rfl, _⟩ | ⟨_, _, heq⟩
    · rfl
    · cases heq

theorem shows_updateState {command : StateCommand} :
    (updateState now state command).Shows tx request := by
  cases command with
  | join createdAt timeout joinedTx =>
      cases state with
      | waitingForSocketToConnect => trivial
      | waitingToJoin | leaving | left =>
          simp only [updateState, join, socketJoinIfNotTimedOut, socketJoin]
          split
          · trivial
          · exact fun _ hmem => by cases hmem
      | joining => exact fun _ hmem => by cases hmem
      | joined joined =>
          intro effect hmem hsucceeds
          obtain rfl := List.mem_singleton.mp hmem
          rcases succeeds_cases hsucceeds with ⟨_, _, _, rfl, _⟩ | ⟨_, _, heq⟩
          · rfl
          · cases heq
      | _ =>
          intro effect hmem hsucceeds
          obtain rfl := List.mem_singleton.mp hmem
          cases request <;> cases hsucceeds
  | leave leftTx =>
      cases state with
      | joining | joined => trivial
      | leaving => exact fun _ hmem => by cases hmem
      | _ => exact fun _ hmem hsucceeds => shows_of_leavers [leftTx] (.ok ()) rfl hmem hsucceeds

theorem BranchReady.shows (h : BranchReady env w state branch w' flow) :
    flow.Shows tx request := by
  have event : ∀ {state : State} {payload : EventPayload},
      (Flow.next state [.event payload]).Shows tx request := by
    intro state payload effect hmem hsucceeds
    obtain rfl := List.mem_singleton.mp hmem
    cases request <;> cases hsucceeds
  cases h with
  | shutdown => exact shows_shutdown
  | connectivity => exact shows_connectivityChanged
  | socketJoined => exact shows_joinedResultReceived
  | socketJoinedClosed => exact shows_socketShutdown
  | left => exact fun effect hmem => by cases hmem
  | socketLeft => exact fun effect hmem hsucceeds => shows_of_leavers _ _ rfl hmem hsucceeds
  | sleep => trivial
  | stateCommand => exact shows_updateState
  | @sendCommand joined command => cases command <;> trivial
  | push =>
      simp only [pushReceived]
      split <;> exact event
  | broadcast => exact event

theorem not_succeeds_sent {call : SocketCall} {fresh : TxId} (hmem : effect ∈ (call.sent fresh).2) :
    effect.succeeds tx request = false := by
  cases call with
  | join state =>
      cases state with
      | leaving => exact not_succeeds_leaveError hmem
      | _ => cases hmem
  | leaveJoining => exact not_succeeds_joinError hmem
  | _ => cases hmem

theorem shows_failed {call : SocketCall} {error : Socket.ShutdownError} :
    (call.failed error).Shows tx request := by
  cases call with
  | join => exact shows_socketShutdown
  | leaveJoining | leaveJoined =>
      intro effect hmem hsucceeds
      obtain rfl := List.mem_singleton.mp hmem
      cases request <;> cases hsucceeds
  | cast | call => exact fun effect hmem => by cases hmem

theorem shows_of_proceed (hflow : flow.Shows tx request) (hold : effect ∉ w.effects)
    (hmem : effect ∈ (w.proceed flow).effects) (hsucceeds : effect.succeeds tx request = true) :
    ∃ state, (w.proceed flow).task = .publishing state ∧ state.status.shows request = true := by
  cases flow with
  | next state effects =>
      exact ⟨state, rfl, hflow effect ((List.mem_append.mp hmem).resolve_left hold) hsucceeds⟩
  | call => exact absurd hmem hold
  | exit error effects =>
      rw [hflow effect ((List.mem_append.mp hmem).resolve_left hold)] at hsucceeds
      cases hsucceeds
  | panic => exact absurd (by simpa [World.proceed, World.finish] using hmem) hold

end Channel

namespace System

open Machine History

variable {strategy : Option (Nat → Duration)} {ok : System → Label → Prop} {ls : List Label}
variable {s s' : System} {label : Label} {c : JoinReference} {w w' : Channel.World} {tx : TxId}
variable {request : Request}

/-- The socket listener is about to set the status that `request` establishes. -/
def SocketPending (request : Request) (s : System) : Prop :=
  ∃ state, s.socket.task = .publishing state ∧ state.status.shows request = true

/-- A success that nobody has seen yet comes from the handler that has just returned. -/
theorem pending_of_undelivered (h : Run (machine strategy) ok init ls s) {effect : Socket.Effect}
    (hmem : effect ∈ s.undelivered) (hsucceeds : effect.succeeds tx request = true) :
    SocketPending request s := by
  refine h.invariant_of_run (I := fun s => ∀ effect ∈ s.undelivered,
    effect.succeeds tx request = true → SocketPending request s) ?_ ?_ effect hmem hsucceeds
  · intro effect hmem
    simp [undelivered, init, Socket.World.effects, Socket.World.init] at hmem
  intro ls s label s' hrun ih _ hs effect hmem hsucceeds
  have seen : s.delivered = s.socket.effects.length →
      effect ∉ s.socket.effects.drop s.delivered := by
    intro hdelivered
    simp [hdelivered]
  cases step_cases hs with
  | user _ h => cases h <;> exact ih effect hmem hsucceeds
  | select hreceive hstep =>
      rw [undelivered, setSocket_delivered, setSocket_socket, hreceive.delivered_eq] at hmem
      rw [SocketPending, setSocket_socket]
      simp only [Socket.machine, Socket.World.step] at hstep
      split at hstep
      · rename_i state htask
        have hdelivered := delivered_of_run hrun (by simp [htask])
        split at hstep
        · obtain ⟨iteration, hselect, rfl⟩ := Option.map_eq_some_iff.mp hstep
          rw [Socket.record_effects, hdelivered, List.drop_left] at hmem
          exact Socket.select_succeeds hselect hmem hsucceeds
        · cases hstep
      · cases hstep
  | spawned | delivered =>
      have hold : effect ∈ s.undelivered :=
        (List.drop_sublist_drop_left _ (Nat.le_succ _)).subset hmem
      exact ih effect hold hsucceeds
  | pushed htask | pushedClosed htask =>
      exact absurd hmem (seen (delivered_of_run hrun (by simp [htask])))
  | publish htask hdelivered => exact absurd hmem (seen hdelivered)
  | @poll c w w' read => cases read <;> exact ih effect hmem hsucceeds
  | _ => exact ih effect hmem hsucceeds

theorem mem_undelivered {effect : Socket.Effect}
    (h : s.socket.effects[s.delivered]? = some effect) : effect ∈ s.undelivered := by
  obtain ⟨hlt, rfl⟩ := List.getElem?_eq_some_iff.mp h
  rw [undelivered, List.drop_eq_getElem_cons hlt]
  exact List.mem_cons_self

theorem visible_grows (hrun : Run (machine strategy) ok init ls s)
    (h : SystemStep strategy s label s') : s.visible <+: s'.visible := by
  rcases h.visible_cases (delivered_le hrun) with hsame | ⟨_, _, _, _, hvisible⟩
  · exact hsame ▸ List.prefix_refl _
  · exact hvisible ▸ List.prefix_append _ _

/-- The status of the socket is set after the answers to its callers. -/
theorem socket_announces (hrequest : request.channel? = none) :
    Announces (machine strategy) ok init (fun s => s.succeeded tx request = true)
      (SocketPending request) (fun s => s.shows request = true)
      (fun l => l.publishes request = true) where
  stays ls s l s' hrun hs hanswered := by
    simp only [succeeded, hrequest, List.any_eq_true] at hanswered ⊢
    obtain ⟨effect, hmem, hsucceeds⟩ := hanswered
    exact ⟨effect, (visible_grows hrun (step_cases hs)).subset hmem, hsucceeds⟩
  begins ls s l s' hrun hs hno hyes := by
    simp only [succeeded, hrequest, List.any_eq_true] at hno hyes
    obtain ⟨effect, hmem, hsucceeds⟩ := hyes
    rcases (step_cases hs).visible_cases (delivered_le hrun) with
      hsame | ⟨e, he, _, hsocket, hvisible⟩
    · exact absurd ⟨effect, hsame ▸ hmem, hsucceeds⟩ hno
    · rw [hvisible] at hmem
      rcases List.mem_append.mp hmem with hold | hnew
      · exact absurd ⟨effect, hold, hsucceeds⟩ hno
      · obtain rfl := List.mem_singleton.mp hnew
        rw [SocketPending, hsocket]
        exact pending_of_undelivered hrun (mem_undelivered he) hsucceeds
  waits ls s l s' hrun hs hpending hl := by
    obtain ⟨state, htask, hshows⟩ := hpending
    have kept : s'.socket.task = s.socket.task → s'.socket.status = s.socket.status →
        SocketPending request s' ∧ (s'.shows request = true ↔ s.shows request = true) := by
      intro htask' hstatus
      refine ⟨⟨state, htask'.trans htask, hshows⟩, ?_⟩
      simp only [System.shows, hrequest, hstatus]
    cases step_cases hs with
    | user _ h => cases h <;> exact kept rfl rfl
    | select _ hstep =>
        cases Socket.step_cases hstep with
        | connected htask' | unconnected htask' => simp [htask] at htask'
    | pushed htask' | pushedClosed htask' => simp [htask] at htask'
    | publish => simp [Label.publishes, hrequest] at hl
    | @poll c w w' read => cases read <;> exact kept rfl rfl
    | _ => exact kept rfl rfl
  ends ls s l s' hrun hs hpending hl := by
    obtain ⟨state, htask, hshows⟩ := hpending
    cases l with
    | publish =>
        cases step_cases hs with
        | user huser => cases huser
        | publish htask' =>
            rw [htask] at htask'
            cases htask'
            simpa only [System.shows, hrequest] using hshows
    | publishChannel c => simp [Label.publishes, hrequest] at hl
    | _ => cases hl
  fresh := by simp [succeeded, hrequest, visible, init, Socket.World.effects, Socket.World.init]

/-- The listener of the channel is about to set the status that `request` establishes. -/
def ChannelPending (request : Request) (c : JoinReference) (s : System) : Prop :=
  ∃ w state, s.channels.lookup c = some w ∧ w.task = .publishing state ∧
    state.status.shows request = true

theorem ChannelStep.succeeds {effect : Channel.Effect} (h : ChannelStep s s' c w label w')
    (hold : effect ∉ w.effects) (hmem : effect ∈ w'.effects)
    (hsucceeds : effect.succeeds tx request = true) :
    ∃ state, w'.task = .publishing state ∧ state.status.shows request = true := by
  cases h with
  | user | stateCommand | sendCommand | publish => exact absurd hmem hold
  | poll hpoll =>
      cases hpoll with
      | breakOk =>
          exact absurd (by simpa [Channel.World.breakOk, Channel.World.finish] using hmem) hold
      | round | pending => exact absurd hmem hold
      | mismatch _ hmismatch => cases hmismatch <;> exact absurd hmem hold
      | ready _ hready =>
          exact Channel.shows_of_proceed hready.shows (hready.effects ▸ hold) hmem hsucceeds
  | forward =>
      rw [Channel.not_succeeds_sent ((List.mem_append.mp hmem).resolve_left hold)] at hsucceeds
      cases hsucceeds
  | fail _ _ hflow =>
      refine Channel.shows_of_proceed ?_ hold hmem hsucceeds
      rcases hflow with ⟨error, _, rfl⟩ | ⟨reason, _, rfl⟩
      · exact Channel.shows_failed
      · trivial

/-- The status of a channel is set after the answers to its callers. -/
theorem channel_announces (hrequest : request.channel? = some c) :
    Announces (machine strategy) ok init (fun s => s.succeeded tx request = true)
      (ChannelPending request c) (fun s => s.shows request = true)
      (fun l => l.publishes request = true) where
  stays ls s l s' hrun hs hanswered := by
    simp only [succeeded, hrequest, Option.any_eq_true, List.any_eq_true] at hanswered ⊢
    obtain ⟨w, hw, effect, hmem, hsucceeds⟩ := hanswered
    obtain ⟨w', hw', rfl | h⟩ := (step_cases hs).channel_next hrun hw
    · exact ⟨w', hw', effect, hmem, hsucceeds⟩
    · exact ⟨w', hw', effect, h.effects_grow.subset hmem, hsucceeds⟩
  begins ls s l s' hrun hs hno hyes := by
    simp only [succeeded, hrequest, Option.any_eq_true, List.any_eq_true] at hno hyes
    obtain ⟨w', hw', effect, hmem, hsucceeds⟩ := hyes
    cases (step_cases hs).channel_cases hw' with
    | kept hw => exact absurd ⟨w', hw, effect, hmem, hsucceeds⟩ hno
    | @stepped w hw h =>
        have hold : effect ∉ w.effects := fun hold => hno ⟨w, hw, effect, hold, hsucceeds⟩
        obtain ⟨state, htask, hshows⟩ := h.succeeds hold hmem hsucceeds
        exact ⟨w', state, hw', htask, hshows⟩
    | spawned _ h =>
        subst h
        cases hmem
  waits ls s l s' hrun hs hpending hl := by
    obtain ⟨w, state, hw, htask, hshows⟩ := hpending
    obtain ⟨w', hw', h⟩ := (step_cases hs).channel_next hrun hw
    have kept : w'.task = w.task → w'.status = w.status →
        ChannelPending request c s' ∧ (s'.shows request = true ↔ s.shows request = true) := by
      intro htask' hstatus
      refine ⟨⟨w', state, hw', htask'.trans htask, hshows⟩, ?_⟩
      simp only [System.shows, hrequest, hw, hw', Option.any_some, hstatus]
    rcases h with rfl | h
    · exact kept rfl rfl
    · cases h with
      | user | stateCommand | sendCommand => exact kept rfl rfl
      | poll hpoll =>
          cases hpoll with
          | breakOk htask' | round htask' | pending htask' | mismatch htask' | ready htask' =>
              simp [htask] at htask'
      | forward htask' | fail htask' => simp [htask] at htask'
      | publish => simp [Label.publishes, hrequest] at hl
  ends ls s l s' hrun hs hpending hl := by
    obtain ⟨w, state, hw, htask, hshows⟩ := hpending
    cases l with
    | publishChannel c' =>
        obtain rfl : c = c' := by simpa [Label.publishes, hrequest] using hl
        cases step_cases hs with
        | user huser => cases huser
        | publishChannel hw₁ htask' =>
            cases Option.some.inj (hw₁.symm.trans hw)
            rw [htask] at htask'
            cases htask'
            simpa [System.shows, hrequest, lookup_setChannel] using hshows
    | publish => simp [Label.publishes, hrequest] at hl
    | _ => cases hl
  fresh := by simp [succeeded, hrequest, lookup_init]

/-! ## Runs -/

theorem succeeded_of_observed (h : s.observed label = some (tx, request)) :
    s.succeeded tx request = true := by
  unfold observed at h
  split at h
  · split at h
    · split at h <;> cases h
      assumption
    · cases h
  · cases h

theorem ResultsPublished.of_quiet {steps : List (System × Label)}
    (h : steps.all (fun x => (x.1.observed x.2).isNone) = true) : ResultsPublished steps := by
  intro before x after hsplit tx request hobserved
  have hnone := List.all_eq_true.mp h x (hsplit ▸ by simp)
  simp [hobserved] at hnone

/-- What callers are told has been shown if and only if the listeners set their status in time. -/
theorem resultsShown_iff_of_run (h : Run (machine strategy) ok init ls s) :
    ResultsShown ((machine strategy).steps init ls) ↔
      ResultsPublished ((machine strategy).steps init ls) := by
  have hiff : Always (fun past x => ∀ tx request, x.1.observed x.2 = some (tx, request) →
      (ShownSince (fun y => y.succeeded tx request = true) (fun y => y.shows request = true)
          past x.1 ↔
        AnnouncedSince (fun y => y.succeeded tx request = true)
          (fun l => l.publishes request = true) past ∨ x.1.shows request = true))
      ((machine strategy).steps init ls) := by
    refine h.always fun ls s l hrun _ tx request hobserved => ?_
    have hsucceeded := succeeded_of_observed hobserved
    cases hrequest : request.channel? with
    | none => exact (socket_announces hrequest).shownSince_iff hrun hsucceeded
    | some c => exact (channel_announces hrequest).shownSince_iff hrun hsucceeded
  constructor
  · intro hshown before x after hsplit tx request hobserved
    exact (hiff before x after hsplit tx request hobserved).mp
      (hshown before x after hsplit tx request hobserved)
  · intro hpublished before x after hsplit tx request hobserved
    exact (hiff before x after hsplit tx request hobserved).mpr
      (hpublished before x after hsplit tx request hobserved)

end System

end PhoenixChannels
