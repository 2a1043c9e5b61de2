import PhoenixChannels.Lib.Conveyor
import PhoenixChannels.System.Lemmas.Purposes

/-!
# The way of casts and calls

A cast or a call goes through the command queue of its channel and the one of the socket. Each channel
has a conveyor of its own: what its callers queue at one end, the socket listener takes at the other.
-/

namespace PhoenixChannels

/-- What a cast or a call sends, under the ticket or the sender that was made for it. -/
abbrev Sending := TxId × EventPayload

/-- What the sender is made to send on the channel. -/
def Purpose.sending? (c : JoinReference) : TxId × Purpose → Option Sending
  | (tx, .request _ (.channelCast c' eventPayload))
  | (tx, .request _ (.channelCall c' eventPayload _)) => if c' = c then some (tx, eventPayload) else none
  | _ => none

def ChannelSendCommand.sending? (c : JoinReference) : ChannelSendCommand → Option Sending
  | call k => if k.joinReference = c then some (k.replyTx, k.eventPayload) else none
  | cast k => if k.joinReference = c then some (k.ticket, k.eventPayload) else none

/-! ## A channel listener -/

namespace Channel

def SendCommand.sending : SendCommand → Sending
  | cast eventPayload ticket => (ticket, eventPayload)
  | call eventPayload replyTx => (replyTx, eventPayload)

def SocketCall.sendings : SocketCall → List Sending
  | cast _ eventPayload ticket => [(ticket, eventPayload)]
  | call _ eventPayload replyTx => [(replyTx, eventPayload)]
  | _ => []

def Task.sendings : Task → List Sending
  | calling call => call.sendings
  | _ => []

def Flow.sendings : Flow → List Sending
  | call c => c.sendings
  | _ => []

/-- What the listener is to send, the oldest first. -/
def World.sendings (w : World) : List Sending :=
  w.task.sendings ++ w.sendCommandRx.map SendCommand.sending

variable {env : Surroundings} {w w' : World} {state : State} {branch : Branch} {flow : Flow}
variable {read : Option TxId} {now : Instant}

/-- The listener is to send what it was to send, or it has ended. -/
def World.Keeps (w w' : World) : Prop :=
  (w.task.isRunning = false → w'.task.isRunning = false) ∧
    (w'.sendings = w.sendings ∨ w'.task.isRunning = false ∧ w'.sendings = [])

theorem World.Keeps.of_eq (htask : w'.task = w.task) (hrx : w'.sendCommandRx = w.sendCommandRx) :
    w.Keeps w' :=
  ⟨fun h => htask ▸ h, .inl (by rw [World.sendings, World.sendings, htask, hrx])⟩

theorem sendings_socketShutdown {error : Socket.ShutdownError} :
    (socketShutdown state error).sendings = [] := by cases state <;> rfl

theorem sendings_updateState {command : StateCommand} :
    (updateState now state command).sendings = [] := by
  cases command with
  | join createdAt timeout joinedTx =>
      cases state <;> simp only [updateState, join, socketJoinIfNotTimedOut, socketJoin] <;>
        first | rfl | (split <;> rfl)
  | leave leftTx => cases state <;> rfl

/-- What is taken from the queue, the handler is to send. -/
theorem BranchReady.sendings (h : BranchReady env w state branch w' flow) :
    flow.sendings ++ w'.sendCommandRx.map SendCommand.sending =
      w.sendCommandRx.map SendCommand.sending := by
  cases h with
  | @sendCommand joined command rest hrx => cases command <;> simp [hrx, send, Flow.sendings,
      SocketCall.sendings, SendCommand.sending]
  | stateCommand => simp [sendings_updateState]
  | socketJoinedClosed => simp [sendings_socketShutdown]
  | _ => rfl

theorem BranchMismatch.sendCommandRx {state' : State}
    (h : BranchMismatch env w state branch w' state') : w'.sendCommandRx = w.sendCommandRx := by
  cases h <;> rfl

theorem proceed_sendings :
    (w.proceed flow).sendings = flow.sendings ++ w.sendCommandRx.map SendCommand.sending ∨
      (w.proceed flow).task.isRunning = false ∧ (w.proceed flow).sendings = [] := by
  cases flow with
  | next state effects | call c => exact .inl rfl
  | exit error effects | panic reason => exact .inr ⟨rfl, rfl⟩

theorem PollStep.keeps (h : PollStep env w w' read) : w.Keeps w' := by
  have running : ∀ {state rest disabled}, w.task = .selecting state rest disabled →
      w.task.isRunning = false → w'.task.isRunning = false := by
    intro state rest disabled htask hended
    simp [htask, Task.isRunning] at hended
  cases h with
  | breakOk htask => exact ⟨running htask, .inr ⟨rfl, rfl⟩⟩
  | round htask | pending htask =>
      exact ⟨running htask, .inl (by simp [World.sendings, Task.sendings, htask])⟩
  | mismatch htask hmismatch =>
      refine ⟨running htask, .inl ?_⟩
      simp [World.sendings, Task.sendings, htask, hmismatch.sendCommandRx]
  | ready htask hready =>
      refine ⟨running htask, ?_⟩
      rcases proceed_sendings with hkept | hended
      · left
        rw [hkept, hready.sendings]
        simp [World.sendings, Task.sendings, htask]
      · exact .inr hended

end Channel

/-! ## The socket listener -/

namespace Socket

/-- What the socket listener takes to be sent on the channel. -/
def Input.sending? (c : JoinReference) : Input → Option Sending
  | channelSendCommand command _ _ => command.sending? c
  | _ => none

/-- The same, where its write succeeds. -/
def Input.sent? (c : JoinReference) : Input → Option Sending
  | channelSendCommand command _ (.ok ()) => command.sending? c
  | _ => none

/-- What a frame sends that is written for a cast or a call on the channel. -/
def Effect.sent? (c : JoinReference) : Effect → Option Sending
  | write (.push push) (.cast tx) | write (.push push) (.call tx) =>
      if push.joinReference = c then some (tx, push.eventPayload) else none
  | _ => none

/-- What the socket listener has taken to be sent on the channel. -/
def sendings (c : JoinReference) (trace : List Entry) : List Sending :=
  trace.filterMap fun e => e.input.sending? c

/-- What the frames on the wire send for the casts and calls on the channel. -/
def sent (c : JoinReference) (effects : List Effect) : List Sending :=
  effects.filterMap (Effect.sent? c)

variable {strategy : Option (Nat → Duration)} {ok : World → Label → Prop} {ls : List Label}
variable {now : Instant} {fresh : TxId} {connected : Connected} {input : Input} {state : State}
variable {iteration : Iteration} {w w' : World} {e : Entry} {c : JoinReference} {effect : Effect}

theorem Input.sending?_of_sent? {x : Sending} (h : input.sent? c = some x) :
    input.sending? c = some x := by
  unfold Input.sent? at h
  split at h
  · exact h
  · cases h

theorem EffectCause.sent {x : Sending} (h : EffectCause now state input effect)
    (hsent : effect.sent? c = some x) : input.sent? c = some x := by
  cases h with
  | quiet hq =>
      have hquiet := hq.quiet
      unfold Effect.quiet at hquiet
      split at hquiet <;> first | cases hsent | cases hquiet
  | callWritten | castWritten => exact hsent
  | _ => cases hsent

theorem Input.sent?_of_silent (h : input.silent = true) : input.sent? c = none := by
  have hpush := Input.push?_of_silent h
  unfold Input.sent?
  split
  · rename_i command uuid
    cases command <;> cases hpush
  · rfl

theorem sent_eq_nil {effects : List Effect}
    (hcause : ∀ effect ∈ effects, EffectCause now state input effect) (h : input.sent? c = none) :
    sent c effects = [] := by
  refine List.filterMap_eq_nil_iff.mpr fun effect hmem => ?_
  cases heffect : effect.sent? c with
  | none => rfl
  | some x => cases h.symm.trans ((hcause effect hmem).sent heffect)

/-- A handler writes what it is to send, or panics over it. -/
theorem ConnectedIteration.sent_cases
    (h : ConnectedIteration now fresh connected input iteration) :
    sent c (World.outcome iteration).2 = (input.sent? c).toList ∨
      (World.outcome iteration).1.isRunning = false ∧ sent c (World.outcome iteration).2 = [] := by
  cases hsent : input.sent? c with
  | none => exact .inl (sent_eq_nil (fun effect hmem => h.cause hmem) hsent)
  | some x =>
      have hloud : input.silent ≠ true := fun h => by cases (Input.sent?_of_silent h).symm.trans hsent
      cases h with
      | call k uuid =>
          have hx : Effect.sent? c (.write (callMessage k uuid) (.call k.replyTx)) = some x := hsent
          simp [sent, World.outcome, hx]
      | cast k uuid =>
          have hx : Effect.sent? c (.write (castMessage k uuid) (.cast k.ticket)) = some x := hsent
          simp [sent, World.outcome, hx]
      | panic => exact .inr ⟨rfl, rfl⟩
      | quiet heartbeat reference hpassive => exact absurd (Input.silent_of_passive hpassive) hloud
      | lost d hsilent => exact absurd hsilent hloud
      | _ => cases hsent

theorem UnconnectedIteration.sent_cases (h : UnconnectedIteration now state input iteration) :
    sent c (World.outcome iteration).2 = (input.sent? c).toList ∨
      (World.outcome iteration).1.isRunning = false ∧ sent c (World.outcome iteration).2 = [] := by
  cases hsent : input.sent? c with
  | none => exact .inl (sent_eq_nil (fun effect hmem => h.cause hmem) hsent)
  | some x =>
      have hloud : input.silent ≠ true := fun h => by cases (Input.sent?_of_silent h).symm.trans hsent
      cases h with
      | exit | panic => exact .inr ⟨rfl, rfl⟩
      | quiet hpassive => exact absurd (Input.silent_of_passive hpassive) hloud
      | _ => cases hsent

/-- What was taken was written, but for the writes that failed and the one that the listener has
panicked over. -/
structure WritesTaken (c : JoinReference) (w : World) : Prop where
  onlyTaken : (sent c w.effects).Sublist (sendings c w.trace)
  all : w.task.isRunning = true → sent c w.effects = w.trace.filterMap fun e => e.input.sent? c

theorem WritesTaken.record (h : WritesTaken c w) (hrunning : w.task.isRunning = true)
    (hcases : sent c (World.outcome iteration).2 = (input.sent? c).toList ∨
      (World.outcome iteration).1.isRunning = false ∧ sent c (World.outcome iteration).2 = []) :
    WritesTaken c (w.record state input iteration) := by
  have hnew : (sent c (World.outcome iteration).2).Sublist (input.sending? c).toList := by
    rcases hcases with hcases | ⟨_, hcases⟩ <;> rw [hcases]
    · cases hsent : input.sent? c with
      | none => exact List.nil_sublist _
      | some x => rw [Input.sending?_of_sent? hsent]
    · exact List.nil_sublist _
  constructor
  · simp only [sendings, record_effects, record_trace, sent, List.filterMap_append] at hnew ⊢
    refine h.onlyTaken.append ?_
    cases hsending : input.sending? c <;> simpa [hsending] using hnew
  · intro hrunning'
    rcases hcases with hcases | ⟨hended, _⟩
    · simp only [sent, record_effects, record_trace, List.filterMap_append] at hcases ⊢
      rw [hcases, ← h.all hrunning, sent]
      cases hsent : input.sent? c <;> simp [hsent]
    · cases hended.symm.trans hrunning'

theorem writesTaken_of_run (h : Machine.Run (machine strategy) ok World.init ls w) :
    WritesTaken c w := by
  have hinit : WritesTaken c World.init := ⟨List.Sublist.refl [], fun _ => rfl⟩
  refine h.invariant hinit ?_
  intro w label w' ih _ hs
  cases step_cases hs with
  | elapse => exact ⟨ih.onlyTaken, ih.all⟩
  | connected htask _ hiter => exact ih.record (by rw [htask]; rfl) hiter.sent_cases
  | unconnected htask _ _ hiter => exact ih.record (by rw [htask]; rfl) hiter.sent_cases
  | pushed htask | publish htask => exact ⟨ih.onlyTaken, fun _ => ih.all (by rw [htask]; rfl)⟩

end Socket

/-! ## The conveyor -/

namespace System

open Machine

/-- What is on its way to the socket listener, the oldest first. -/
def sendings (s : System) (c : JoinReference) : List Sending :=
  s.channelSendCommandRx.filterMap (ChannelSendCommand.sending? c)
    ++ ((s.channels.lookup c).map Channel.World.sendings).getD []

/-- The way of the casts and calls on the channel `c`. It is cut when the channel's listener ends. -/
def sendConveyor (c : JoinReference) : Conveyor System Label Sending where
  feeds s label := (s.made label).toList.filterMap (Purpose.sending? c)
  carried s := s.sendings c
  taken s := Socket.sendings c s.socket.trace
  cut s := s.listenerEnded (some c) = true
  stopped s := s.socket.task.isRunning = false

variable {strategy : Option (Nat → Duration)} {s s' taken : System} {label : Label}
variable {ok : System → Label → Prop} {ls : List Label} {c c' : JoinReference}
variable {w w' : Channel.World} {event : SocketEvent} {input : Socket.Input} {i : Nat}
variable {op : Operation} {phase : Phase}

theorem feeds_eq_nil (h : s.made label = none) : (sendConveyor c).feeds s label = [] := by
  simp [sendConveyor, h]

theorem feeds_of_command {tx : TxId} {command : ChannelStateCommand}
    (h : s.made label = some (tx, .command command)) : (sendConveyor c).feeds s label = [] := by
  simp [sendConveyor, h, Purpose.sending?]

/-- A step that feeds nothing, and changes no listener and no queue on the way. -/
theorem moves_of_eq (hfeeds : (sendConveyor c).feeds s label = [])
    (hrx : s'.channelSendCommandRx = s.channelSendCommandRx) (hchannels : s'.channels = s.channels)
    (hrunning : s'.socket.task.isRunning = s.socket.task.isRunning)
    (htrace : s'.socket.trace = s.socket.trace) : (sendConveyor c).Moves s label s' := by
  refine .of_eq hfeeds ?_ ?_ ?_ ?_
  · simp only [sendConveyor, sendings, hrx, hchannels]
  · simp only [sendConveyor, htrace]
  · simp only [sendConveyor, listenerEnded, hchannels, imp_self]
  · simp only [sendConveyor, hrunning, imp_self]

/-- A step that feeds nothing and changes one listener, which is still to send what it was to send. -/
theorem moves_of_keeps (hfeeds : (sendConveyor c).feeds s label = [])
    (hw : s.channels.lookup c' = some w)
    (hrx : s'.channelSendCommandRx = s.channelSendCommandRx) (hsocket : s'.socket = s.socket)
    (hchannels : s'.channels = s.channels.insert c' w') (hkeeps : w.Keeps w') :
    (sendConveyor c).Moves s label s' := by
  by_cases hc : c = c'
  · subst c'
    have hw' : s'.channels.lookup c = some w' := by rw [hchannels, Dict.lookup_insert_eq, if_pos rfl]
    have htaken : (sendConveyor c).taken s' = (sendConveyor c).taken s := by
      simp only [sendConveyor, hsocket]
    have hstopped : (sendConveyor c).stopped s → (sendConveyor c).stopped s' := by
      simp only [sendConveyor, hsocket, imp_self]
    rcases hkeeps.2 with heq | ⟨hended, hnil⟩
    · refine .of_eq hfeeds ?_ htaken ?_ hstopped
      · simp [sendConveyor, sendings, hw, hw', hrx, heq]
      · simpa [sendConveyor, listenerEnded, hw, hw'] using hkeeps.1
    · refine .of_cut hfeeds ?_ htaken ?_ hstopped
      · simp [sendConveyor, sendings, hw, hw', hrx, hnil]
      · simp [sendConveyor, listenerEnded, hw', hended]
  · have hw' : s'.channels.lookup c = s.channels.lookup c := by
      rw [hchannels, Dict.lookup_insert_eq, if_neg hc]
    refine .of_eq hfeeds ?_ ?_ ?_ ?_ <;>
      simp only [sendConveyor, sendings, listenerEnded, hrx, hw', hsocket, imp_self]

/-- A caller queues a cast or a call. -/
theorem moves_of_feeds {command : Channel.SendCommand}
    (hfeeds : (sendConveyor c).feeds s label = if c' = c then [command.sending] else [])
    (hw : s.channels.lookup c' = some w) (hrunning : w.task.isRunning = true)
    (hrx : s'.channelSendCommandRx = s.channelSendCommandRx) (hsocket : s'.socket = s.socket)
    (hchannels : s'.channels = s.channels.insert c'
      { w with sendCommandRx := w.sendCommandRx ++ [command] }) :
    (sendConveyor c).Moves s label s' := by
  by_cases hc : c' = c
  · subst c'
    have hw' : s'.channels.lookup c =
        some { w with sendCommandRx := w.sendCommandRx ++ [command] } := by
      rw [hchannels, Dict.lookup_insert_eq, if_pos rfl]
    rw [if_pos rfl] at hfeeds
    refine .of_feeds ?_ ?_ ?_ ?_
    · rw [hfeeds]
      simp [sendConveyor, sendings, hw, hw', hrx, Channel.World.sendings]
    · simp only [sendConveyor, hsocket]
    · simp [sendConveyor, listenerEnded, hw, hrunning]
    · simp only [sendConveyor, hsocket, imp_self]
  · rw [if_neg hc] at hfeeds
    have hw' : s'.channels.lookup c = s.channels.lookup c := by
      rw [hchannels, Dict.lookup_insert_eq, if_neg (Ne.symm hc)]
    refine .of_eq hfeeds ?_ ?_ ?_ ?_ <;>
      simp only [sendConveyor, sendings, listenerEnded, hrx, hw', hsocket, imp_self]

/-! ## Steps -/

theorem feeds_advance (hop : s.operations[i]? = some op)
    (h : ∀ tx, Purpose.sending? c (tx, .request i op.request) = none) :
    (sendConveyor c).feeds s (.advance i) = [] := by
  simp only [sendConveyor, made, hop]
  repeat' split
  all_goals simp [h]

theorem feeds_of_request {eventPayload : EventPayload} (hop : s.operations[i]? = some op)
    (hphase : op.phase = .sending) (hchannel : op.request.channel? = some c')
    (hshutdown : op.request.isShutdown = false) (hw : s.channels.lookup c' = some w)
    (hrunning : w.task.isRunning = true)
    (hsends : Purpose.sending? c (s.fresh, .request i op.request) =
      if c' = c then some (s.fresh, eventPayload) else none) :
    (sendConveyor c).feeds s (.advance i) = if c' = c then [(s.fresh, eventPayload)] else [] := by
  have hended : s.listenerEnded op.request.channel? = false := by
    simp [hchannel, listenerEnded, hw, hrunning]
  simp only [sendConveyor, made_of_sending hop hphase hended hshutdown, Option.toList_some,
    List.filterMap_cons, List.filterMap_nil, hsends]
  by_cases hc : c' = c <;> simp [hc]

theorem AdvanceStep.moves (hop : s.operations[i]? = some op) (h : AdvanceStep s i op s') :
    (sendConveyor c).Moves s (.advance i) s' := by
  cases h with
  | @socketCommand command use deadline hphase hchannel hrunning huse hsuits =>
      refine moves_of_eq (feeds_advance hop fun tx => ?_) rfl rfl rfl rfl
      cases hrequest : op.request <;> rw [hrequest] at hchannel <;> first | rfl | cases hchannel
  | shutdown hphase hrequest | channelSpawn hphase hrequest =>
      exact moves_of_eq (feeds_advance hop fun tx => by rw [hrequest]; rfl) rfl rfl rfl rfl
  | @stateCommand c' w command use deadline hphase hchannel hw hrunning huse hsuits =>
      refine moves_of_keeps (feeds_advance hop fun tx => ?_) hw rfl rfl rfl (.of_eq rfl rfl)
      cases hrequest : op.request <;> rw [hrequest] at hsuits <;> cases hsuits <;>
        first | rfl | (cases command <;> cases huse)
  | @cast c' w eventPayload hphase hrequest hw hrunning =>
      refine moves_of_feeds (feeds_of_request hop hphase ?_ ?_ hw hrunning ?_) hw hrunning rfl rfl rfl
      all_goals rw [hrequest]; rfl
  | @call c' w eventPayload timeout deadline hphase hrequest hw hrunning =>
      refine moves_of_feeds (feeds_of_request hop hphase ?_ ?_ hw hrunning ?_) hw hrunning rfl rfl rfl
      all_goals rw [hrequest]; rfl
  | channel hw _ hmade => exact moves_of_keeps (feeds_eq_nil hmade) hw rfl rfl rfl (.of_eq rfl rfl)
  | handle hmade | caller _ hmade => exact moves_of_eq (feeds_eq_nil hmade) rfl rfl rfl rfl

theorem Receive.sendings (h : Receive s event input taken) :
    s.channelSendCommandRx.filterMap (ChannelSendCommand.sending? c) =
      (input.sending? c).toList
        ++ taken.channelSendCommandRx.filterMap (ChannelSendCommand.sending? c) := by
  cases h with
  | @channelSendCommand uuid sent command rest hrx =>
      rw [hrx, List.filterMap_cons, Socket.Input.sending?]
      split <;> simp [*]
  | _ => rfl

/-- The socket listener takes what is next. -/
theorem select_moves {socket : Socket.World} (hreceive : Receive s event input taken)
    (hstep : (Socket.machine strategy).step s.socket (.select input) = some socket) :
    (sendConveyor c).Moves s (.select event) (taken.setSocket socket) := by
  obtain ⟨e, htrace, rfl⟩ := select_trace hstep
  have hfeeds : (sendConveyor c).feeds s (.select event) = [] := feeds_eq_nil rfl
  have hsendings := hreceive.sendings (c := c)
  have hchannels : (taken.setSocket socket).channels = s.channels := by
    rw [setSocket_channels, hreceive.channels_eq]
  have htaken : (sendConveyor c).taken (taken.setSocket socket) =
      (sendConveyor c).taken s ++ (e.input.sending? c).toList := by
    simp only [sendConveyor, setSocket_socket, htrace, Socket.sendings, List.filterMap_append]
    cases hsending : e.input.sending? c <;> simp [hsending]
  have hcut : (sendConveyor c).cut s → (sendConveyor c).cut (taken.setSocket socket) := by
    simp only [sendConveyor, listenerEnded, hchannels, imp_self]
  have hrunning : ¬ (sendConveyor c).stopped s := by
    cases Socket.step_cases hstep with
    | connected htask | unconnected htask =>
        simp [sendConveyor, htask, Socket.Task.isRunning]
  cases hended : socket.task.isRunning with
  | true =>
      refine .of_take hfeeds ?_ hcut hrunning
      rw [htaken, List.append_assoc]
      simp only [sendConveyor, System.sendings, setSocket_of_running hended,
        hreceive.channels_eq, hsendings, List.append_assoc]
  | false =>
      refine .of_stop hfeeds ?_ hcut hrunning ?_
      · rw [htaken, List.prefix_append_right_inj]
        simp only [sendConveyor, System.sendings, hsendings, List.append_assoc]
        exact List.prefix_append _ _
      · simp only [sendConveyor, setSocket_socket, hended]

/-- A listener that has ended is not replaced. -/
theorem listenerEnded_insert (hrunning : s.listenerEnded (some c') = false)
    (hchannels : s'.channels = s.channels.insert c' w') (h : s.listenerEnded (some c) = true) :
    s'.listenerEnded (some c) = true := by
  have hc : c ≠ c' := by
    rintro rfl
    cases hrunning.symm.trans h
  simpa [listenerEnded, hchannels, Dict.lookup_insert_eq, hc] using h

/-- What a listener hands to the socket goes from the head of one queue to the end of the next. -/
theorem forwardSend_moves {call : Channel.SocketCall} {command : ChannelSendCommand}
    (hrun : Run (machine strategy) ok init ls s) (hw : s.channels.lookup c' = some w)
    (htask : w.task = .calling call) (hcommand : call.command w.listener s.fresh = .inr command) :
    (sendConveyor c).Moves s (.forward c') { s.resumed c' w call with
      channelSendCommandRx := s.channelSendCommandRx ++ [command] } := by
  have hfeeds : (sendConveyor c).feeds s (.forward c') = [] := by
    refine feeds_eq_nil ?_
    rw [made_of_forward hw htask, hcommand]
  have hrunning : s.listenerEnded (some c') = false := by
    simp [listenerEnded, hw, htask, Channel.Task.isRunning]
  have href := joinReference_of_run hrun hw
  refine .of_eq hfeeds ?_ rfl (listenerEnded_insert hrunning rfl) id
  rcases eq_or_ne c' c with rfl | hc
  · have hsending : [command].filterMap (ChannelSendCommand.sending? c') = call.sendings := by
      cases call <;> cases hcommand <;>
        simp [Channel.SocketCall.sendings, ChannelSendCommand.sending?, href]
    simp [sendConveyor, sendings, List.filterMap_append, hsending, resumed, hw,
      Channel.World.sendings, htask, Channel.Task.sendings]
  · have hsending : command.sending? c = none := by
      cases call <;> cases hcommand <;> simp [ChannelSendCommand.sending?, href, hc]
    simp only [sendConveyor, sendings, List.filterMap_append, List.filterMap_cons, hsending,
      List.filterMap_nil, List.append_nil, resumed, setChannel_channels, Dict.lookup_insert_eq,
      if_neg (Ne.symm hc)]

theorem SystemStep.moves (hrun : Run (machine strategy) ok init ls s)
    (h : SystemStep strategy s label s') (hlabel : label.isUser = false) :
    (sendConveyor c).Moves s label s' := by
  cases h with
  | user h => cases h.symm.trans hlabel
  | elapse | delivered => exact moves_of_eq (feeds_eq_nil rfl) rfl rfl rfl rfl
  | pushed htask | pushedClosed htask | publish htask =>
      refine moves_of_eq (feeds_eq_nil rfl) rfl rfl ?_ rfl
      rw [htask]
      rfl
  | select hreceive hstep => exact select_moves hreceive hstep
  | @spawned spawn c' state sent heffect =>
      have hnone := lookup_of_spawned hrun heffect
      refine .of_eq (feeds_eq_nil rfl) ?_ rfl ?_ id
      · simp only [sendConveyor, sendings, Dict.lookup_insert_eq]
        split
        · subst c'
          simp [hnone, Channel.World.sendings, Channel.World.spawn, Channel.Task.sendings,
            Channel.Task.select]
        · rfl
      · have hrunning : s.listenerEnded (some c') = false := by
          simp [System.listenerEnded, hnone]
        exact listenerEnded_insert hrunning rfl
  | @poll c' w w' read hw hpoll =>
      refine moves_of_keeps (feeds_eq_nil rfl) hw ?_ ?_ ?_ hpoll.keeps <;> cases read <;> rfl
  | @forwardState c' w call command hw htask hrunning hcommand =>
      have hmade := made_of_forward hw htask
      rw [hcommand] at hmade
      refine moves_of_keeps (feeds_of_command hmade) hw rfl rfl rfl ⟨?_, .inl ?_⟩
      · simp [htask, Channel.Task.isRunning]
      · cases call <;> cases hcommand <;>
          simp [Channel.World.sendings, htask, Channel.Task.sendings, Channel.SocketCall.sendings]
  | forwardSend hw htask hrunning hcommand => exact forwardSend_moves hrun hw htask hcommand
  | @fail c' w call flow hw htask hrunning =>
      have hlistener : s.listenerEnded (some c') = false := by
        simp [System.listenerEnded, hw, htask, Channel.Task.isRunning]
      exact .of_stopped (fun _ => feeds_eq_nil rfl) rfl (listenerEnded_insert hlistener rfl) hrunning
        hrunning
  | publishChannel hw htask =>
      refine moves_of_keeps (feeds_eq_nil rfl) hw rfl rfl rfl ⟨?_, .inl ?_⟩
      · simp [htask, Channel.Task.isRunning]
      · simp [Channel.World.sendings, htask, Channel.Task.sendings, Channel.Task.select]

theorem moves_of_step (hrun : Run (machine strategy) ok init ls s)
    (h : (machine strategy).step s label = some s') : (sendConveyor c).Moves s label s' := by
  cases label with
  | advance i =>
      obtain ⟨op, hop, h⟩ := advance_cases h
      exact h.moves hop
  | begin request =>
      simp only [machine, step, beginStep] at h
      repeat' split at h
      all_goals cases h <;> exact moves_of_eq (feeds_eq_nil rfl) rfl rfl rfl rfl
  | drop c' =>
      simp only [machine, step, dropStep] at h
      split at h
      · rename_i w hw
        split at h <;> cases h
        exact moves_of_keeps (feeds_eq_nil rfl) hw rfl rfl rfl (.of_eq rfl rfl)
      · cases h
  | expire i =>
      simp only [machine, step, expireStep] at h
      repeat' split at h
      all_goals cases h
      exact moves_of_eq (feeds_eq_nil rfl) rfl rfl rfl rfl
  | _ => exact (step_cases h).moves hrun rfl

theorem conveyed_of_run (h : Run (machine strategy) ok init ls s) :
    (sendConveyor c).Conveyed ((machine strategy).steps init ls) s :=
  Conveyor.conveyed_of_run rfl rfl (fun _ _ _ _ => moves_of_step) h

/-! ## What callers have queued -/

/-- The casts and calls that the listener of the channel was given, in that order. -/
def accepted (c : JoinReference) (past : List (System × Label)) : List Sending :=
  (makings past).filterMap (Purpose.sending? c)

theorem sending?_fst {x : TxId × Purpose} {sending : Sending}
    (h : Purpose.sending? c x = some sending) : sending.1 = x.1 := by
  unfold Purpose.sending? at h
  split at h
  · split at h <;> cases h
    rfl
  · split at h <;> cases h
    rfl
  · cases h

theorem accepted_sublist (past : List (System × Label)) :
    ((accepted c past).map Prod.fst).Sublist ((makings past).map Prod.fst) := by
  unfold accepted
  induction makings past with
  | nil => exact .slnil
  | cons x rest ih =>
      rw [List.filterMap_cons]
      split
      · exact .cons _ ih
      · rename_i sending hsending
        rw [List.map_cons, List.map_cons, sending?_fst hsending]
        exact ih.cons_cons _

theorem fed_eq_accepted (past : List (System × Label)) :
    (sendConveyor c).fed past = accepted c past := by
  induction past with
  | nil => rfl
  | cons x past ih =>
      have hcons : (sendConveyor c).fed (x :: past) =
          (sendConveyor c).feeds x.1 x.2 ++ (sendConveyor c).fed past := rfl
      rw [hcons, ih]
      cases h : x.1.made x.2 with
      | none => simp [sendConveyor, accepted, makings, h]
      | some made =>
          cases hsending : Purpose.sending? c made <;>
            simp [sendConveyor, accepted, makings, h, hsending]

end System

end PhoenixChannels
