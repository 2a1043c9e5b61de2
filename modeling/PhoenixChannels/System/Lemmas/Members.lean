import PhoenixChannels.System.Lemmas.Deliveries
import PhoenixChannels.System.Lemmas.Joins

/-!
# The members behind the push queues

Which channel holds the receiver of a push queue, from the answer to its join on. While it does, the
socket listener hears nothing else from its channel, and what finished its join is the last that
happened to its membership on the connection.
-/

namespace PhoenixChannels

open Machine

/-! ## What the socket listener does for a channel -/

namespace Socket

variable {strategy : Option (Nat → Duration)} {w w' : World} {input : Input} {c' : Connected}
variable {key : JoinKey} {j : Join} {e : Entry} {trace : List Entry} {tx : TxId}
variable {receivers : JoinedChannelReceivers}

theorem pendingJoin_new {now : Instant} {timeout : Duration} :
    (Connected.new now timeout).pendingJoin key = none := NestedMap.find_empty _ _

theorem step_quiet {l : Label} (hl : ∀ input, l ≠ .select input)
    (h : (machine strategy).step w l = some w') :
    w'.trace = w.trace ∧ w'.task.connection = w.task.connection := by
  cases step_cases h with
  | elapse => exact ⟨rfl, rfl⟩
  | connected | unconnected => exact absurd rfl (hl _)
  | pushed htask | publish htask => exact ⟨rfl, by rw [htask]; rfl⟩

theorem select_entry (h : (machine strategy).step w (.select input) = some w') :
    ∃ e : Entry, w'.trace = w.trace ++ [e] ∧ e.input = input ∧ w.task = .selecting e.before := by
  obtain ⟨state, iteration, htask, _, rfl⟩ := step_select h
  exact ⟨_, rfl, rfl, htask⟩

/-- A join is pending because it was, or because its command was taken. -/
theorem select_pendingJoin (h : (machine strategy).step w (.select input) = some w')
    (hc' : w'.task.connection = some c') (hj : c'.pendingJoin key = some j) :
    (∃ c, w.task.connection = some c ∧ c.pendingJoin key = some j) ∨
      ∃ command, input.stateCommand? = some command ∧
        command.joinReference = key.joinReference := by
  cases select_change h hc' with
  | fresh _ _ hc =>
      rw [hc, pendingJoin_new] at hj
      cases hj
  | @kept c e htask =>
      have hc : w.task.connection = some c := by rw [htask]; rfl
      obtain ⟨state, iteration, htask', hselect, rfl⟩ := step_select h
      cases htask.symm.trans htask'
      have hchange := (select_connected hselect).joinsChange
      rw [record_task] at hc'
      generalize answered (World.outcome iteration).2 = txs, htaken : input.join? = taken at hchange
      cases hchange with
      | kept hconnection _ hpending =>
          cases hconnection.symm.trans hc'
          exact .inl ⟨c, hc, hpending key ▸ hj⟩
      | started j' hconnection hpending =>
          cases hconnection.symm.trans hc'
          rw [hpending] at hj
          split at hj
          · rename_i hkey
            refine .inr ⟨.join j', ?_, hkey ▸ rfl⟩
            unfold Input.join? at htaken
            split at htaken <;> cases htaken
            rfl
          · exact .inl ⟨c, hc, hj⟩
      | answered key' j' hconnection _ hpending =>
          cases hconnection.symm.trans hc'
          rw [hpending] at hj
          split at hj
          · cases hj
          · exact .inl ⟨c, hc, hj⟩
      | lost hconnection =>
          rw [hconnection] at hc'
          cases hc'
      | dead hstate =>
          rw [Task.connection_eq_some, hstate] at hc'
          cases hc'

theorem pendingJoin_of_finishes {n : Nat} (h : (machine strategy).step w (.select input) = some w')
    (htrace : w'.trace = w.trace ++ [e]) (hfinishes : e.FinishesJoin n j receivers)
    (hc' : w'.task.connection = some c') : c'.pendingJoin j.key = none := by
  cases select_change h hc' with
  | fresh _ _ hc => rw [hc, pendingJoin_new]
  | @kept c f _ htrace' _ _ _ hchange =>
      obtain rfl : f = e := by simpa using htrace'.symm.trans htrace
      cases hchange with
      | kept _ _ hjoined | left _ _ hjoined =>
          rw [hfinishes.joined] at hjoined
          cases hjoined
      | @broadcast b _ _ heffects =>
          rw [hfinishes.effects] at heffects
          rcases c.handleBroadcast_effects b with hnil | ⟨tx, hone⟩
          · rw [hnil] at heffects
            cases heffects
          · rw [hone] at heffects
            cases heffects
      | @joined reply join _ _ hjoined _ hc =>
          have hkey : j.key = reply.key := Option.some.inj (hfinishes.joined.symm.trans hjoined)
          rw [hc, Connected.finishJoin_pendingJoin, Connected.removeJoin_pendingJoin, if_pos hkey]

theorem Entry.left?_command (h : e.Possible) (hleft : e.left? = some key) :
    ∃ command, e.input.stateCommand? = some command ∧
      command.joinReference = key.joinReference := by
  obtain ⟨⟨id, origin⟩, hmem, hid⟩ := List.exists_of_findSome?_eq_some hleft
  cases origin with
  | leave ticket =>
      cases hid
      rcases Entry.written_cases h with hnil | ⟨x, hpush, hx⟩
      · rw [hnil] at hmem
        cases hmem
      · rw [hx] at hmem
        obtain rfl := List.mem_singleton.mp hmem
        unfold Input.push? at hpush
        split at hpush <;> cases hpush
        rename_i hinput
        exact ⟨_, congrArg Input.stateCommand? hinput, rfl⟩
  | _ => cases hid

end Socket

/-! ## Who holds a push queue -/

theorem Channel.readsBroadcast_of_joiningRx {task : Channel.Task} {tx : TxId}
    (h : task.joiningRx = some tx) : task.readsBroadcast = false := by
  cases hreads : task.readsBroadcast with
  | false => rfl
  | true =>
      obtain ⟨joined, rest, disabled, rfl⟩ := Channel.readsBroadcast_joined hreads
      cases h

theorem Channel.joiningRx_of_joined {task : Channel.Task} {joined : Channel.Joined}
    (h : task.joined? = some joined) : task.joiningRx = none := by
  cases task with
  | selecting state | publishing state => cases state <;> first | rfl | cases h
  | calling call => cases call <;> first | rfl | cases h
  | exited | panicked => rfl

namespace System

variable {strategy : Option (Nat → Duration)} {ok : System → Label → Prop} {ls : List Label}
variable {s s' taken : System} {label : Label} {c : JoinReference} {w w' : Channel.World} {tx : TxId}

/-- The listener `c` has the receivers of a membership, or will find them in the answer to its
join. -/
def Receives (s : System) (c : JoinReference) (tx : TxId) (rx : BroadcastReceiver) : Prop :=
  ∃ w, s.channels.lookup c = some w ∧
    ((∃ joined, w.task.joined? = some joined ∧ joined.pushRx = tx ∧ joined.broadcastRx = rx) ∨
      ∃ joinedRx receivers, w.task.joiningRx = some joinedRx ∧
        .joinedTx joinedRx (.ok receivers) ∈ s.socket.effects ∧ receivers.push = tx ∧
        receivers.broadcast = rx)

def Holds (s : System) (c : JoinReference) (tx : TxId) : Prop := ∃ rx, s.Receives c tx rx

theorem holdsPushRx_iff : s.holdsPushRx w tx = true ↔
    (∃ joined, w.task.joined? = some joined ∧ joined.pushRx = tx) ∨
      ∃ rx receivers, w.task.joiningRx = some rx ∧
        .joinedTx rx (.ok receivers) ∈ s.socket.effects ∧ receivers.push = tx := by
  simp only [holdsPushRx, Bool.or_eq_true, Option.any_eq_true, decide_eq_true_eq,
    List.any_eq_true, Channel.Task.joiningRx, Option.map_eq_some_iff]
  refine or_congr Iff.rfl ?_
  constructor
  · rintro ⟨joining, hjoining, effect, hmem, heffect⟩
    cases effect with
    | joinedTx tx' result =>
        cases result with
        | ok receivers =>
            simp only [Bool.and_eq_true, decide_eq_true_eq] at heffect
            obtain ⟨rfl, rfl⟩ := heffect
            exact ⟨_, receivers, ⟨joining, hjoining, rfl⟩, hmem, rfl⟩
        | error => cases heffect
    | _ => cases heffect
  · rintro ⟨rx, receivers, ⟨joining, hjoining, rfl⟩, hmem, rfl⟩
    exact ⟨joining, hjoining, _, hmem, by simp⟩

theorem pushRxAlive_of_holds (h : s.Holds c tx) : s.pushRxAlive tx = true := by
  obtain ⟨rx, w, hw, h⟩ := h
  refine List.any_eq_true.mpr ⟨w, Dict.mem_values.mpr ⟨c, hw⟩, holdsPushRx_iff.mpr ?_⟩
  rcases h with ⟨joined, hj, htx, _⟩ | ⟨joinedRx, receivers, hrx, hmem, htx, _⟩
  · exact .inl ⟨joined, hj, htx⟩
  · exact .inr ⟨joinedRx, receivers, hrx, hmem, htx⟩

/-- How a listener comes to the receivers of a membership: it had them before, it has polled the
branch of the broadcasts, or its join is answered now. -/
inductive ReceivesCase (s : System) (c : JoinReference) (label : Label) (s' : System) (tx : TxId)
    (rx : BroadcastReceiver) : Prop
  | held : (label = .poll c → ∀ w, s.channels.lookup c = some w → w.task.readsBroadcast = false) →
      s.Receives c tx rx → ReceivesCase s c label s' tx rx
  | read {w : Channel.World} {joined : Channel.Joined} : label = .poll c →
      s.channels.lookup c = some w → w.task.readsBroadcast = true → w.task.joined? = some joined →
      joined.pushRx = tx → rx = { joined.broadcastRx with
        next := ((s.broadcasts joined.broadcastRx.tx).recv joined.broadcastRx.next).2 } →
      ReceivesCase s c label s' tx rx
  | given {w : Channel.World} {joinedRx : TxId} {e : Socket.Entry}
      {receivers : JoinedChannelReceivers} :
      s.channels.lookup c = some w → w.task.joiningRx = some joinedRx →
      s.socket.task.isRunning = true → s'.socket.trace = s.socket.trace ++ [e] →
      .joinedTx joinedRx (.ok receivers) ∈ e.effects → receivers.push = tx →
      receivers.broadcast = rx → ReceivesCase s c label s' tx rx

theorem SystemStep.effects_cases (h : SystemStep strategy s label s') :
    s'.socket.effects = s.socket.effects ∨ ∃ e, s'.socket.trace = s.socket.trace ++ [e] ∧
      s'.channels = s.channels ∧ s.socket.task.isRunning = true := by
  cases h with
  | user _ h => cases h <;> exact .inl rfl
  | select hreceive hstep =>
      obtain ⟨e, htrace, _⟩ := select_trace hstep
      refine .inr ⟨e, ?_, ?_, select_running hstep⟩
      · rw [setSocket_socket, htrace]
      · rw [setSocket_channels, hreceive.channels_eq]
  | poll => exact .inl (by simp [setChannel])
  | _ => exact .inl rfl

theorem fresh_unanswered (hrun : Run (machine strategy) ok init ls s)
    (hrunning : s.socket.task.isRunning = true) {receivers : JoinedChannelReceivers} :
    .joinedTx s.fresh (.ok receivers) ∉ s.socket.effects := by
  intro hmem
  have hanswered : s.fresh ∈ Socket.answered s.socket.effects :=
    List.mem_filterMap.mpr ⟨_, hmem, rfl⟩
  have htaken := (joinsTracked_of_run hrun).known _ hanswered
  obtain ⟨j, hj, htx⟩ := List.mem_map.mp (joins_txs s ▸ List.mem_append_left _ htaken)
  exact absurd htx (Nat.ne_of_lt ((joinsSent_of_run hrun hrunning).old j hj))

theorem forward_running (h : SystemStep strategy s (.forward c) s') :
    s.socket.task.isRunning = true := by
  cases h with
  | user hlabel => cases hlabel
  | forwardState _ _ hrunning | forwardSend _ _ hrunning => exact hrunning

/-- How a listener comes to the membership that it has after a step. -/
theorem SystemStep.joined_cases {joined' : Channel.Joined} (h : SystemStep strategy s label s')
    (hrun : Run (machine strategy) ok init ls s) (hw' : s'.channels.lookup c = some w')
    (hj : w'.task.joined? = some joined') :
    ∃ w, s.channels.lookup c = some w ∧ (label ≠ .poll c ∧ w.task.joined? = some joined' ∨
      label = .poll c ∧ Channel.JoinedCase s.surroundings w joined') := by
  by_cases hlabel : label = .poll c
  · subst hlabel
    cases h with
    | user hlabel => cases hlabel
    | @poll c w w₁ read hw hstep =>
        rw [lookup_setChannel, if_pos rfl] at hw'
        cases hw'
        exact ⟨w, hw, .inr ⟨rfl, hstep.joined hj⟩⟩
  · cases h.channel_cases hw' with
    | kept hw => exact ⟨w', hw, .inl ⟨hlabel, hj⟩⟩
    | @stepped w hw hstep =>
        refine ⟨w, hw, .inl ⟨hlabel, ?_⟩⟩
        cases hstep with
        | user | stateCommand | sendCommand => exact hj
        | poll => exact absurd rfl hlabel
        | forward htask =>
            rw [htask]
            exact (Channel.sent_joined? (by simpa using hj)).1
        | fail htask _ hflow =>
            rw [Channel.proceed_joined?] at hj
            rw [htask]
            rcases hflow with ⟨error, _, rfl⟩ | ⟨reason, _, rfl⟩
            · exact Channel.failed_joined? hj
            · cases hj
        | publish htask =>
            rw [htask]
            simpa [Channel.Task.select] using hj
    | spawned heffect hspawn =>
        subst hspawn
        obtain ⟨before, rfl⟩ := spawned_state hrun heffect
        cases before <;> cases hj

theorem joined_sent {rx : TxId} {receivers : JoinedChannelReceivers}
    (h : s.joined rx = .sent (.ok receivers)) :
    .joinedTx rx (.ok receivers) ∈ s.visible := by
  unfold joined oneshot at h
  split at h
  · rename_i result hfound
    cases h
    obtain ⟨effect, hmem, heffect⟩ := List.exists_of_findSome?_eq_some hfound
    cases effect with
    | joinedTx tx' result =>
        simp only [Option.ite_none_right_eq_some, Option.some.injEq] at heffect
        obtain ⟨rfl, rfl⟩ := heffect
        exact hmem
    | _ => cases heffect
  · split at h <;> cases h

theorem SystemStep.receives_cases {rx : BroadcastReceiver} (h : SystemStep strategy s label s')
    (hrun : Run (machine strategy) ok init ls s) (hreceives : s'.Receives c tx rx) :
    ReceivesCase s c label s' tx rx := by
  obtain ⟨w', hw', ⟨joined', hj, rfl, rfl⟩ | ⟨joinedRx, receivers, hrx, hmem, rfl, rfl⟩⟩ := hreceives
  · obtain ⟨w, hw, ⟨hlabel, hj⟩ | ⟨rfl, hcase⟩⟩ := h.joined_cases hrun hw' hj
    · exact .held (fun heq => absurd heq hlabel) ⟨w, hw, .inl ⟨joined', hj, rfl, rfl⟩⟩
    · cases hcase with
      | kept hreads hj =>
          refine .held (fun _ w₁ hw₁ => ?_) ⟨w, hw, .inl ⟨joined', hj, rfl, rfl⟩⟩
          rw [← Option.some.inj (hw.symm.trans hw₁), hreads]
      | read hreads hj hjoined => exact .read rfl hw hreads hj (by rw [hjoined]) (by rw [hjoined]; rfl)
      | answered htask hsent hpush hbroadcast =>
          refine .held (fun _ w₁ hw₁ => ?_) ⟨w, hw, .inr ⟨_, _, by rw [htask]; rfl,
            List.mem_of_mem_take (joined_sent hsent), hpush.symm, hbroadcast.symm⟩⟩
          rw [← Option.some.inj (hw.symm.trans hw₁), htask]
          rfl
  · have held : ∀ {w : Channel.World}, s.channels.lookup c = some w →
        w.task.joiningRx = some joinedRx →
        .joinedTx joinedRx (.ok receivers) ∈ s.socket.effects →
        ReceivesCase s c label s' receivers.push receivers.broadcast := by
      intro w hw hrx hmem
      refine .held (fun _ w₁ hw₁ => ?_) ⟨w, hw, .inr ⟨joinedRx, receivers, hrx, hmem, rfl, rfl⟩⟩
      cases Option.some.inj (hw.symm.trans hw₁)
      exact Channel.readsBroadcast_of_joiningRx hrx
    rcases h.effects_cases with heffects | ⟨e, htrace, hchannels, hrunning⟩
    · rw [heffects] at hmem
      cases h.joining_cases hrun hw' hrx with
      | waits hw hrx => exact held hw hrx hmem
      | sent hlabel hw htask _ htx =>
          subst hlabel htx
          exact absurd hmem (fresh_unanswered hrun (forward_running h))
    · rw [hchannels] at hw'
      simp only [Socket.World.effects, htrace, List.flatMap_append, List.mem_append,
        List.flatMap_singleton] at hmem
      rcases hmem with hmem | hmem
      · exact held hw' hrx hmem
      · exact .given hw' hrx hrunning htrace hmem rfl rfl

/-- How a listener comes to hold a push queue: it did before, or its join is answered now. -/
inductive HoldsCase (s : System) (c : JoinReference) (s' : System) (tx : TxId) : Prop
  | held : s.Holds c tx → HoldsCase s c s' tx
  | given {w : Channel.World} {joinedRx : TxId} {e : Socket.Entry}
      {receivers : JoinedChannelReceivers} :
      s.channels.lookup c = some w → w.task.joiningRx = some joinedRx →
      s.socket.task.isRunning = true → s'.socket.trace = s.socket.trace ++ [e] →
      .joinedTx joinedRx (.ok receivers) ∈ e.effects → receivers.push = tx → HoldsCase s c s' tx

theorem SystemStep.holds_cases (h : SystemStep strategy s label s')
    (hrun : Run (machine strategy) ok init ls s) (hholds : s'.Holds c tx) :
    HoldsCase s c s' tx := by
  obtain ⟨rx, hreceives⟩ := hholds
  cases h.receives_cases hrun hreceives with
  | held _ hreceives => exact .held ⟨rx, hreceives⟩
  | @read w joined _ hw _ hj htx =>
      exact .held ⟨joined.broadcastRx, w, hw, .inl ⟨joined, hj, htx, rfl⟩⟩
  | given hw hrx hrunning htrace hmem htx => exact .given hw hrx hrunning htrace hmem htx

/-! ## What the trace tells of a member -/

/-- The membership of `tx`: the join that it began with was the last command of its channel, and is
the last that the socket listener did for it on the connection. -/
structure Settled (s : System) (key : Socket.JoinKey) (tx : TxId) : Prop where
  finished : ∃ e join receivers, (s.socket.trace)[tx]? = some e ∧
    e.FinishesJoin tx join receivers ∧ join.key = key
  queue : ∀ command ∈ s.channelStateCommandRx, command.joinReference ≠ key.joinReference
  pending {connected : Socket.Connected} : s.socket.task.connection = some connected →
    connected.pendingJoin key = none
  current : (∀ e ∈ s.socket.trace.drop (tx + 1), e.broadcastsConnected = false) →
    Socket.joinedAt key s.socket.trace = some tx

/-- The last command of a channel is not in the queue any more when it was taken. -/
theorem CommandsSent.queue_empty (h : CommandsSent s) {command : ChannelStateCommand}
    (hlast : (s.commandsOf c).getLast? = some command)
    (htaken : command ∈ Socket.commandsTaken s.socket.trace) :
    ∀ command' ∈ s.channelStateCommandRx, command'.joinReference ≠ c := by
  intro command' hmem hc
  have hne : s.channelStateCommandRx.filter (fun x => x.joinReference = c) ≠ [] := by
    intro hnil
    have hnot := List.filter_eq_nil_iff.mp hnil command' hmem
    simp [hc] at hnot
  rw [commandsOf, commands, List.filter_append, List.getLast?_append_of_ne_nil _ hne] at hlast
  have hqueued := (List.mem_filter.mp (List.mem_of_getLast? hlast)).1
  have hdistinct := h.distinct
  rw [commands, List.map_append] at hdistinct
  exact (List.nodup_append.mp hdistinct).2.2 _ (List.mem_map_of_mem htaken) _
    (List.mem_map_of_mem hqueued) rfl

theorem command_of_joinsTaken {j : Join} {sent : Bool} {trace : List Socket.Entry}
    (h : (j, sent) ∈ Socket.joinsTaken trace) : .join j ∈ Socket.commandsTaken trace := by
  obtain ⟨e, he, hj⟩ := List.mem_filterMap.mp h
  refine List.mem_filterMap.mpr ⟨e, he, ?_⟩
  unfold Socket.Input.join? at hj
  split at hj <;> cases hj <;> simp [*, Socket.Input.stateCommand?]

theorem Receive.mem_queue {event : SocketEvent} {input : Socket.Input}
    {command : ChannelStateCommand} (h : Receive s event input taken)
    (hcommand : input.stateCommand? = some command) : command ∈ s.channelStateCommandRx := by
  rw [← h.commands, hcommand]
  exact List.mem_cons_self

theorem Receive.mem_queue_of_setSocket {event : SocketEvent} {input : Socket.Input}
    {command : ChannelStateCommand} {socket : Socket.World} (h : Receive s event input taken)
    (hmem : command ∈ (taken.setSocket socket).channelStateCommandRx) :
    command ∈ s.channelStateCommandRx := by
  unfold setSocket at hmem
  split at hmem
  · rw [← h.commands]
    exact List.mem_append_right _ hmem
  · cases hmem

/-- Which commands are in the queue after a step: those that were, and the one that a listener sends,
which then holds no push queue. -/
theorem SystemStep.queue_cases {command : ChannelStateCommand} (h : SystemStep strategy s label s')
    (hrun : Run (machine strategy) ok init ls s) (hmem : command ∈ s'.channelStateCommandRx) :
    command ∈ s.channelStateCommandRx ∨ ∀ tx, ¬ s'.Holds command.joinReference tx := by
  cases h with
  | user _ h => cases h <;> exact .inl hmem
  | select hreceive => exact .inl (hreceive.mem_queue_of_setSocket hmem)
  | @forwardState c w call command' hw htask hrunning hcommand =>
      rcases List.mem_append.mp hmem with hmem | hmem
      · exact .inl hmem
      obtain rfl := List.mem_singleton.mp hmem
      obtain ⟨href, _⟩ := command_inl hcommand
      rw [joinReference_of_run hrun hw] at href
      refine .inr fun tx ⟨_, w', hw', hreceives⟩ => ?_
      rw [href] at hw'
      obtain rfl : _ = w' := by simpa [resumed, setChannel] using hw'
      rcases hreceives with ⟨joined, hj, _⟩ | ⟨rx, receivers, hrx, hanswer, _⟩
      · rw [Channel.joined?_publishing] at hj
        obtain ⟨_, hsend⟩ := (Channel.sent_joined? hj).2 w.listener s.fresh
        rw [hcommand] at hsend
        cases hsend
      · obtain ⟨rfl, _⟩ := Channel.sent_joiningRx hrx
        exact absurd hanswer (fresh_unanswered hrun hrunning)
  | @poll c w w' read => cases read <;> exact .inl hmem
  | _ => exact .inl hmem

theorem Settled.step {key : Socket.JoinKey} {ls' : List Label} (h : Settled s key tx)
    (hrun : Run (machine strategy) ok init ls s) (hrun' : Run (machine strategy) ok init ls' s')
    (hstep : SystemStep strategy s label s') (hholds : s'.Holds key.joinReference tx) :
    Settled s' key tx := by
  have hqueue : ∀ command ∈ s'.channelStateCommandRx,
      command.joinReference ≠ key.joinReference := by
    intro command hmem href
    rcases hstep.queue_cases hrun hmem with hmem | hnot
    · exact h.queue command hmem href
    · exact hnot tx (href ▸ hholds)
  obtain ⟨e, join, receivers, he, hfinishes, hkey⟩ := h.finished
  cases hstep.socket_cases with
  | kept heq => exact ⟨heq ▸ ⟨e, join, receivers, he, hfinishes, hkey⟩, hqueue,
      fun hc => h.pending (heq ▸ hc), heq ▸ h.current⟩
  | stepped hl hsocket =>
      obtain ⟨htrace, hconnection⟩ := Socket.step_quiet hl hsocket
      rw [← htrace] at he
      exact ⟨⟨e, join, receivers, he, hfinishes, hkey⟩, hqueue, fun hc => h.pending (hconnection ▸ hc),
        htrace ▸ h.current⟩
  | selected _ hreceive hsocket =>
      obtain ⟨f, htrace, rfl, htask⟩ := Socket.select_entry hsocket
      have hlt : tx < s.socket.trace.length := (List.getElem?_eq_some_iff.mp he).1
      have hcommand : ∀ command, f.input.stateCommand? = some command →
          command.joinReference ≠ key.joinReference :=
        fun command hcommand => h.queue command (hreceive.mem_queue hcommand)
      refine ⟨⟨e, join, receivers, ?_, hfinishes, hkey⟩, hqueue, fun {connected} hc => ?_, ?_⟩
      · rw [htrace, List.getElem?_append_left hlt]
        exact he
      · cases hj : connected.pendingJoin key with
        | none => rfl
        | some j =>
            rcases Socket.select_pendingJoin hsocket hc hj with
              ⟨connected₀, hc₀, hj₀⟩ | ⟨command, htaken, href⟩
            · rw [h.pending hc₀] at hj₀
              cases hj₀
            · exact absurd href (hcommand command htaken)
      · intro hafter
        obtain ⟨ks, hks⟩ := socket_run hrun'
        have hfinished := Socket.joinsFinished_of_run hks
        rw [htrace] at hafter hfinished ⊢
        rw [List.drop_append_of_le_length hlt] at hafter
        have hjoined : f.joined? ≠ some key := by
          intro hjoined
          obtain ⟨tx', receivers', hmem⟩ := Socket.Entry.effect_of_joined hjoined
          obtain ⟨join', hfinishes', _⟩ := hfinished _ f [] rfl tx' receivers' hmem
          cases Option.some.inj (hfinishes'.joined.symm.trans hjoined)
          obtain ⟨connected, hbefore, hpending⟩ := hfinishes'.pending
          rw [h.pending (by rw [htask, hbefore]; rfl)] at hpending
          cases hpending
        have hleft : f.left? ≠ some key := by
          intro hleft
          have hpossible := Socket.possible_of_run hks f (by rw [htrace]; simp)
          obtain ⟨command, htaken, href⟩ := Socket.Entry.left?_command hpossible hleft
          exact hcommand command htaken href
        rw [Socket.joinedAt_append, hafter f (by simp), if_neg hjoined, if_neg hleft]
        exact h.current fun e he => hafter e (List.mem_append_left _ he)

/-- The answer to a join settles the membership that begins with it. -/
theorem settled_of_given {ls' : List Label} {rx : TxId} {e : Socket.Entry}
    {receivers : JoinedChannelReceivers} (hrun : Run (machine strategy) ok init ls s)
    (hrun' : Run (machine strategy) ok init ls' s') (hstep : SystemStep strategy s label s')
    (hw : s.channels.lookup c = some w) (hrx : w.task.joiningRx = some rx)
    (hrunning : s.socket.task.isRunning = true) (htrace : s'.socket.trace = s.socket.trace ++ [e])
    (hmem : .joinedTx rx (.ok receivers) ∈ e.effects) :
    receivers.push = s.socket.trace.length ∧
      Settled s' ⟨w.listener.topic, c⟩ s.socket.trace.length := by
  obtain ⟨ks, hks⟩ := socket_run hrun
  obtain ⟨ks', hks'⟩ := socket_run hrun'
  obtain ⟨join, hfinishes, htx⟩ :=
    Socket.joinsFinished_of_run hks' _ e [] htrace rx receivers hmem
  obtain ⟨connected, hbefore, hpending⟩ := hfinishes.pending
  cases hstep.socket_cases with
  | kept heq => simp [heq] at htrace
  | stepped hl hsocket => simp [(Socket.step_quiet hl hsocket).1] at htrace
  | @selected event input taken hlabel hreceive hsocket =>
      obtain ⟨f, htrace', hinput, htask⟩ := Socket.select_entry hsocket
      obtain rfl : f = e := by simpa using htrace'.symm.trans htrace
      have hc : s.socket.task.connection = some connected := by rw [htask, hbefore]; rfl
      -- the join that is answered is the one that the channel waits for
      obtain ⟨sent, htaken⟩ := ((joinsTracked_of_run hrun).pending hc hpending).taken
      have hcommand := command_of_joinsTaken htaken
      have hsent := commandsSent_of_run hrun hrunning
      obtain ⟨join', hlast, htx', htopic⟩ := hsent.last hw hrx
      have hmem' := List.mem_filter.mp (List.mem_of_getLast? hlast)
      have heq : ChannelStateCommand.join join = .join join' :=
        List.inj_on_of_nodup_map hsent.distinct (List.mem_append_left _ hcommand) hmem'.1
          (htx.trans htx'.symm)
      cases heq
      have hkey : join.key = ⟨w.listener.topic, c⟩ := by
        have href : join.joinReference = c := of_decide_eq_true hmem'.2
        rw [Join.key, htopic, href]
      have hconnected : f.broadcastsConnected = false := by
        simp [Socket.Entry.broadcastsConnected, hfinishes.effects]
      refine ⟨hfinishes.push, ⟨f, join, receivers, by simp [htrace], hfinishes, hkey⟩, ?_, ?_, ?_⟩
      · subst hlabel
        cases hstep with
        | user hlabel => cases hlabel
        | select hreceive =>
            exact fun command hqueued => hsent.queue_empty hlast hcommand command
              (hreceive.mem_queue_of_setSocket hqueued)
      · intro connected' hc'
        rw [← hkey]
        exact Socket.pendingJoin_of_finishes hsocket htrace' hfinishes hc'
      · intro _
        rw [htrace, Socket.joinedAt_append, hconnected, hfinishes.joined, hkey]
        simp

theorem SystemStep.listener {ls' : List Label} (h : SystemStep strategy s label s')
    (hrun : Run (machine strategy) ok init ls' s) (hw : s.channels.lookup c = some w)
    (hw' : s'.channels.lookup c = some w') : w'.listener = w.listener := by
  obtain ⟨w₁, hw₁, heq | hstep⟩ := h.channel_next hrun hw
  · rw [← heq, Option.some.inj (hw₁.symm.trans hw')]
  · rw [← hstep.listener, Option.some.inj (hw₁.symm.trans hw')]

/-- Who holds a push queue is the channel whose join the socket listener finished last. -/
theorem settled_of_run (h : Run (machine strategy) ok init ls s)
    (hw : s.channels.lookup c = some w) (hholds : s.Holds c tx) :
    Settled s ⟨w.listener.topic, c⟩ tx := by
  refine h.invariant_of_run (I := fun s => ∀ c tx w, s.channels.lookup c = some w →
    s.Holds c tx → Settled s ⟨w.listener.topic, c⟩ tx) ?_ ?_ c tx w hw hholds
  · intro c tx w hw
    rw [lookup_init] at hw
    cases hw
  intro ls s label s' hrun ih hok hs c tx w' hw' hholds'
  have hstep := step_cases hs
  have hrun' := hrun.snoc hok hs
  cases hstep.holds_cases hrun hholds' with
  | held hholds =>
      obtain ⟨rx, w, hw, hreceives⟩ := hholds
      rw [hstep.listener hrun hw hw']
      exact (ih c tx w hw ⟨rx, w, hw, hreceives⟩).step hrun hrun' hstep hholds'
  | given hw hrx hrunning htrace hmem htx =>
      obtain ⟨hpush, hsettled⟩ := settled_of_given hrun hrun' hstep hw hrx hrunning htrace hmem
      rw [hstep.listener hrun hw hw', ← htx, hpush]
      exact hsettled

/-! ## The pushes of a member -/

end System

namespace Socket

variable {strategy : Option (Nat → Duration)} {ok : World → Label → Prop} {ls : List Label}
variable {w : World} {trace : List Entry} {key : JoinKey} {tx : TxId} {i : Nat}

/-- The pushes that the web socket gave for a channel. -/
def pushesFor (key : JoinKey) (trace : List Entry) : List Push :=
  (trace.filterMap fun e => e.input.pushed?).filter fun push => push.key = key

@[simp] theorem pushesFor_append {e : Entry} : pushesFor key (trace ++ [e]) =
    pushesFor key trace ++ e.input.pushed?.toList.filter (fun push => push.key = key) := by
  cases h : e.input.pushed? <;> simp [pushesFor, h]

theorem joinedAt_lt (h : joinedAt key trace = some i) : i < trace.length := by
  obtain ⟨e, he, _⟩ := joined?_of_joinedAt h
  exact (List.getElem?_eq_some_iff.mp he).1

theorem joinedAt_key {key' : JoinKey} (h : joinedAt key trace = some i)
    (h' : joinedAt key' trace = some i) : key = key' := by
  obtain ⟨e, he, hjoined⟩ := joined?_of_joinedAt h
  obtain ⟨e', he', hjoined'⟩ := joined?_of_joinedAt h'
  cases Option.some.inj (he.symm.trans he')
  exact Option.some.inj (hjoined.symm.trans hjoined')

theorem joinedAt_of_append {e : Entry} (h : joinedAt key (trace ++ [e]) = some i) :
    i = trace.length ∨ joinedAt key trace = some i := by
  rw [joinedAt_append] at h
  split at h
  · cases h
  split at h
  · exact .inl (Option.some.inj h).symm
  split at h
  · cases h
  · exact .inr h

/-- What `handle_push` does with each push. -/
def PushesHanded (trace : List Entry) : Prop :=
  History.Always (fun before e => e.handed? = e.input.pushed?.bind fun p =>
    (joinedAt p.key before).map fun tx => (tx, p)) trace

/-- Nothing is handed to a member before its join was finished. -/
theorem PushesHanded.handedInto_eq_nil (h : PushesHanded trace) (hlength : trace.length ≤ tx + 1) :
    handedInto tx trace = [] := by
  refine List.eq_nil_iff_forall_not_mem.mpr fun x hx => ?_
  obtain ⟨⟨e, n⟩, hmem, hx⟩ := List.mem_filterMap.mp hx
  have he := List.mk_mem_zipIdx_iff_getElem?.mp hmem
  have hn := (List.getElem?_eq_some_iff.mp he).1
  obtain ⟨hsplit, htake⟩ := split_of_getElem? he
  obtain ⟨⟨tx', push⟩, hhanded, hpair⟩ := Option.bind_eq_some_iff.mp hx
  simp only [Option.ite_none_right_eq_some] at hpair
  obtain ⟨rfl, _⟩ := hpair
  rw [h _ _ _ hsplit] at hhanded
  obtain ⟨p, _, hp⟩ := Option.bind_eq_some_iff.mp hhanded
  obtain ⟨j, hat, hj⟩ := Option.map_eq_some_iff.mp hp
  cases hj
  have hlt := joinedAt_lt hat
  omega

/-- All pushes that come for a member are handed to it. -/
theorem PushesHanded.handedInto_eq (h : PushesHanded trace) (hat : joinedAt key trace = some i) :
    (handedInto i trace).map Prod.snd = pushesFor key (trace.drop (i + 1)) := by
  induction trace using List.reverseRecOn with
  | nil => cases hat
  | append_singleton trace e ih =>
      obtain ⟨hbefore, he⟩ := History.Always.append_iff.mp h
      rcases joinedAt_of_append hat with rfl | hat
      · rw [h.handedInto_eq_nil (by simp), List.drop_eq_nil_of_le (by simp)]
        rfl
      · rw [handedInto_append, List.map_append, ih hbefore hat,
          List.drop_append_of_le_length (joinedAt_lt hat), pushesFor_append, he]
        congr 1
        cases hpushed : e.input.pushed? with
        | none => rfl
        | some push =>
            by_cases hkey : push.key = key
            · simp [hkey, hat]
            · have hne : joinedAt push.key trace ≠ some i := fun h => hkey (joinedAt_key h hat)
              cases hother : joinedAt push.key trace with
              | none => simp [hkey, hother]
              | some j =>
                  rw [hother] at hne
                  have hj : j ≠ i := fun h => hne (congrArg some h)
                  simp [hkey, hother, hj]

end Socket

namespace System

variable {strategy : Option (Nat → Duration)} {ok : System → Label → Prop} {ls : List Label}
variable {s : System} {c : JoinReference} {tx : TxId}

/-- Every push that was handed to a member was taken by its channel, or still can be. -/
theorem account_of_holds (h : Run (machine strategy) ok init ls s) (hholds : s.Holds c tx) :
    account tx ((machine strategy).steps init ls) s =
      (Socket.handedInto tx s.socket.trace).map Prod.snd := by
  induction h generalizing c with
  | nil => rfl
  | @snoc ls s label s' hrun hok hs ih =>
      have hstep := step_cases hs
      have haccount := account_step tx ((machine strategy).steps init ls) hs
      rw [hrun.steps_snoc]
      cases hstep.holds_cases hrun hholds with
      | held hheld =>
          have heq := ih hheld
          cases haccount with
          | kept haccount hhanded => rw [haccount, hhanded, heq]
          | handed n push haccount hhanded =>
              rw [haccount, hhanded, heq]
              simp
          | dropped push hdead =>
              rw [pushRxAlive_of_holds hheld] at hdead
              cases hdead
      | given hw hrx hrunning htrace hmem htx =>
          have hrun' := hrun.snoc hok hs
          obtain ⟨hpush, _⟩ := settled_of_given hrun hrun' hstep hw hrx hrunning htrace hmem
          obtain ⟨ks, hks⟩ := socket_run hrun'
          have hhanded : Socket.PushesHanded s'.socket.trace := Socket.handed?_of_run hks
          have hsublist := haccount.sublist (account_sublist hrun tx)
          rw [hhanded.handedInto_eq_nil (by simp [htrace, ← htx, hpush])] at hsublist ⊢
          exact List.sublist_nil.mp hsublist

end System

end PhoenixChannels
