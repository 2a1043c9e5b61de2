import PhoenixChannels.System.Lemmas.Subscriptions

/-!
# The events of the members

What a member sends to its user, and that it takes a broadcast that waits for it without the help of
another task.
-/

namespace PhoenixChannels.System

open Machine

variable {strategy : Option (Nat → Duration)} {ok : System → Label → Prop} {ls : List Label}
variable {s s' : System} {label : Label} {c c' : JoinReference} {w w' : Channel.World} {tx : TxId}
variable {past : List (System × Label)} {rx : BroadcastReceiver} {d : Delivery}
variable {joined : Channel.Joined} {b : Broadcast}

/-! ## The events of a member -/

/-- A channel that is a member takes messages as this member only, and no other channel does. -/
theorem taken_iff (hrun : Run (machine strategy) ok init ls s) (hholds : s.Holds c tx)
    (h : s.taken? label = some d) : d.channel = c ↔ d.member = tx := by
  constructor
  · rintro rfl
    obtain ⟨w, joined, _, hw, hj, hmember, _⟩ := taken?_poll h
    obtain ⟨rx, w', hw', ⟨joined', hj', rfl, _⟩ | ⟨joinedRx, _, hrx, _⟩⟩ := hholds
    · cases Option.some.inj (hw.symm.trans hw')
      cases Option.some.inj (hj.symm.trans hj')
      exact hmember.symm
    · cases Option.some.inj (hw.symm.trans hw')
      rw [Channel.joiningRx_of_joined hj] at hrx
      cases hrx
  · rintro rfl
    exact holder_unique hrun (holds_of_taken h) hholds

theorem eventPayloads_sent (hw : s.channels.lookup c = some w) :
    (s.eventPayloads c).sent = w.events := by
  simp [eventPayloads, hw, Channel.World.events]

theorem not_holds_of_spawned {i : Nat} {spawn : Socket.ChannelSpawn} {state : Channel.State}
    {sent : Bool} {listener : Channel.Listener} {seen : Nat}
    (hrun : Run (machine strategy) ok init ls s)
    (heffect : s.socket.effects[i]? = some (.spawned spawn c state sent))
    (hw' : s'.channels.lookup c = some (.spawn listener state seen)) : ¬ s'.Holds c tx := by
  obtain ⟨before, rfl⟩ := spawned_state hrun heffect
  rintro ⟨rx, w, hw, h⟩
  cases Option.some.inj (hw'.symm.trans hw)
  rcases h with ⟨joined, hj, _⟩ | ⟨joinedRx, _, hrx, _⟩
  · cases before <;> cases hj
  · cases before <;> cases hrx

/-- A member sends the event of each message that it takes, and no others. -/
theorem eventPayloads_step (hrun : Run (machine strategy) ok init ls s)
    (hs : (machine strategy).step s label = some s') (hholds' : s'.Holds c tx) :
    (s'.eventPayloads c).sent = (s.eventPayloads c).sent ++
      ((s.taken? label).toList.filter fun d => d.channel = c).map fun d => d.arrival.eventPayload := by
  have hstep := step_cases hs
  obtain ⟨rx, w', hw', _⟩ := id hholds'
  by_cases hlabel : label = .poll c
  · subst hlabel
    obtain ⟨w, w₁, read, hw, _, rfl, hevents, _⟩ := poll_step hs
    rw [lookup_setChannel, if_pos rfl] at hw'
    cases hw'
    rw [eventPayloads_sent hw, eventPayloads_sent (by rw [lookup_setChannel, if_pos rfl]), hevents]
    cases htaken : s.taken? (.poll c) with
    | none => rfl
    | some d =>
        obtain ⟨_, _, hlabel, _⟩ := taken?_poll htaken
        cases hlabel
        simp
  · have hnone : (s.taken? label).toList.filter (fun d => d.channel = c) = [] := by
      refine List.filter_eq_nil_iff.mpr fun d hd => ?_
      obtain ⟨_, _, hpoll, _⟩ := taken?_poll (Option.mem_toList.mp hd)
      rintro hc
      exact hlabel (of_decide_eq_true hc ▸ hpoll)
    rw [hnone, List.map_nil, List.append_nil, eventPayloads_sent hw']
    cases hstep.channel_cases hw' with
    | kept hw => rw [eventPayloads_sent hw]
    | stepped hw hchannel =>
        rw [eventPayloads_sent hw]
        cases hchannel with
        | user | stateCommand | sendCommand | publish => rfl
        | poll => exact absurd rfl hlabel
        | forward htask => simp [Channel.World.events, Channel.events_sent]
        | fail _ _ hflow =>
            rw [Channel.proceed_events]
            rcases hflow with ⟨error, _, rfl⟩ | ⟨reason, _, rfl⟩
            · rw [Channel.events_failed, List.append_nil]
            · exact List.append_nil _
    | spawned heffect hspawn =>
        subst hspawn
        exact absurd hholds' (not_holds_of_spawned hrun heffect hw')

/-- The events that a member has sent, after those of the time before its join was finished. -/
theorem eventPayloads_of_run (h : Run (machine strategy) ok init ls s) (hholds : s.Holds c tx) :
    ∃ s₀ event, (s₀, .select event) ∈ (machine strategy).steps init ls ∧
      s₀.socket.trace.length = tx ∧
      (s.eventPayloads c).sent = (s₀.eventPayloads c).sent ++
        ((deliveries ((machine strategy).steps init ls)).filter fun d => d.member = tx).map
          fun d => d.arrival.eventPayload := by
  induction h generalizing tx with
  | nil =>
      obtain ⟨rx, w, hw, _⟩ := hholds
      rw [lookup_init] at hw
      cases hw
  | @snoc ls s label s' hrun hok hs ih =>
      have hstep := step_cases hs
      have hevents := eventPayloads_step hrun hs hholds
      rw [hrun.steps_snoc]
      cases hstep.holds_cases hrun hholds with
      | held hheld =>
          obtain ⟨s₀, event, hmem, hlength, hsent⟩ := ih hheld
          refine ⟨s₀, event, List.mem_append_left _ hmem, hlength, ?_⟩
          rw [hevents, hsent, deliveries_snoc, List.filter_append, List.map_append,
            List.append_assoc]
          congr 3
          refine List.filter_congr fun d hd => decide_eq_decide.mpr ?_
          exact taken_iff hrun hheld (Option.mem_toList.mp hd)
      | @given w joinedRx e receivers hw hrx hrunning htrace hmem htx =>
          obtain ⟨hpush, _⟩ := settled_of_given hrun (hrun.snoc hok hs) hstep hw hrx hrunning
            htrace hmem
          cases hstep.trace_cases with
          | kept heq => simp [heq] at htrace
          | @selected event input taken _ hlabel =>
              subst hlabel
              refine ⟨s, event, by simp, hpush.symm.trans htx, ?_⟩
              rw [hevents, deliveries_snoc, taken?_eq_none (by simp)]
              have hnone : (deliveries ((machine strategy).steps init ls)).filter
                  (fun d => d.member = tx) = [] := by
                refine List.filter_eq_nil_iff.mpr fun d hd => ?_
                have hlt := member_lt_of_run hrun d hd
                rw [← hpush, htx] at hlt
                simpa using Nat.ne_of_lt hlt
              simp [hnone]

/-! ## Taking a broadcast -/

/-- The steps that the listener `c` takes by itself. -/
def Label.ofListener (c : JoinReference) : Label → Bool
  | poll c' | forward c' | publishChannel c' => c' = c
  | _ => false

/-- The queues of the socket have room for what the listener has yet to send. -/
def hasRoom (s : System) (w : Channel.World) : Bool :=
  s.channelStateCommandRx.length < socketCapacity &&
    s.channelSendCommandRx.length + w.commandsLeft ≤ socketCapacity

theorem hasRoom_iff : s.hasRoom w = true ↔ s.channelStateCommandRx.length < socketCapacity ∧
    s.channelSendCommandRx.length + w.commandsLeft ≤ socketCapacity := by
  simp [hasRoom]

/-- The listener `c` takes the broadcast `b` with its next poll, or is not joined any more. -/
def TakesOrLeaves (c : JoinReference) (tx : TxId) (b : Broadcast) (s : System) : Prop :=
  s.taken? (.poll c) = some ⟨c, tx, .broadcast b⟩ ∨
    ∀ w, s.channels.lookup c = some w → w.task.joined? = none

/-- The member `c` can read the broadcast `b`. -/
structure CanTake (c : JoinReference) (tx : TxId) (rx : BroadcastReceiver) (b : Broadcast)
    (s : System) (w : Channel.World) : Prop where
  listener : s.channels.lookup c = some w
  member : ∃ joined, w.task.joined? = some joined ∧ joined.pushRx = tx ∧ joined.broadcastRx = rx
  enabled : w.task.broadcastDisabled = false
  next : (s.broadcasts rx.tx).recv rx.next = (.message b, rx.next + 1)
  running : s.socket.task.isRunning = true
  room : s.hasRoom w = true

/-- How much the listener `c` has to do before it reads a broadcast. -/
def workLeft (c : JoinReference) (tx : TxId) (s : System) : Nat :=
  match s.channels.lookup c with
  | some w => 10 * (w.stateCommandRx.length + w.sendCommandRx.length + (s.pushRx tx).length)
      + w.task.stepsLeft
  | none => 0

theorem workLeft_eq (hw : s.channels.lookup c = some w) : s.workLeft c tx =
    10 * (w.stateCommandRx.length + w.sendCommandRx.length + (s.pushRx tx).length)
      + w.task.stepsLeft := by
  simp only [workLeft, hw]

/-- The listener itself brings the socket and what it sends no further. -/
theorem CanTake.step (h : CanTake c tx rx b s w) (hsocket : s'.socket = s.socket)
    (hdelivered : s'.delivered = s.delivered) (hw' : s'.channels.lookup c = some w')
    (hj : w'.task.joined? = w.task.joined?) (henabled : w'.task.broadcastDisabled = false)
    (hroom : s'.hasRoom w' = true) : CanTake c tx rx b s' w' := by
  obtain ⟨joined, hjoined, htx, hrx⟩ := h.member
  have hvisible : s'.visible = s.visible := by rw [visible, visible, hsocket, hdelivered]
  have hbroadcasts : s'.broadcasts rx.tx = s.broadcasts rx.tx := by
    simp only [System.broadcasts, hvisible]
  exact ⟨hw', ⟨joined, hj.trans hjoined, htx, hrx⟩, henabled, hbroadcasts ▸ h.next,
    hsocket ▸ h.running, hroom⟩

/-- A step of the listener `c` that brings it nearer to the broadcast `b`. -/
def Nears (strategy : Option (Nat → Duration)) (c : JoinReference) (tx : TxId)
    (rx : BroadcastReceiver) (b : Broadcast) (s : System) : Prop :=
  ∃ l s', l.ofListener c = true ∧ (machine strategy).step s l = some s' ∧
    (TakesOrLeaves c tx b s' ∨
      (∃ w', CanTake c tx rx b s' w') ∧ s'.workLeft c tx < s.workLeft c tx)

theorem CanTake.nears_publishing {state : Channel.State} (h : CanTake c tx rx b s w)
    (htask : w.task = .publishing state) : Nears strategy c tx rx b s := by
  have hs : (machine strategy).step s (.publishChannel c) =
      some (s.setChannel c { w with task := .select state, status := state.status }) := by
    simp [machine, System.step, publishChannelStep, h.listener, Channel.World.publish, htask]
  have hw' : ∀ w', (s.setChannel c w').channels.lookup c = some w' := by
    intro w'
    rw [lookup_setChannel, if_pos rfl]
  obtain ⟨joined, hj, _⟩ := h.member
  rw [htask] at hj
  have hstate : state = .joined joined := by
    cases state <;> cases hj
    rfl
  subst hstate
  refine ⟨_, _, by simp [Label.ofListener], hs, .inr ⟨⟨_, h.step rfl rfl (hw' _) ?_ ?_ ?_⟩, ?_⟩⟩
  · rw [htask]
    rfl
  · simp [Channel.Task.select, Channel.Task.broadcastDisabled]
  · have hroom := hasRoom_iff.mp h.room
    rw [Channel.World.commandsLeft, htask] at hroom
    exact hasRoom_iff.mpr hroom
  · rw [workLeft_eq (hw' _), workLeft_eq h.listener, htask]
    exact Nat.add_lt_add_left (by simp [Channel.Task.select, Channel.Task.stepsLeft,
      Channel.State.branches]) _

theorem CanTake.nears_calling {call : Channel.SocketCall} (h : CanTake c tx rx b s w)
    (htask : w.task = .calling call) : Nears strategy c tx rx b s := by
  obtain ⟨joined, hj, _⟩ := h.member
  rw [htask] at hj
  obtain ⟨hstateRoom, hsendRoom⟩ := hasRoom_iff.mp h.room
  rw [Channel.World.commandsLeft, htask] at hsendRoom
  have sends : (Channel.Task.publishing (call.sent s.fresh).1).joined? = some joined →
      (∃ command, call.command w.listener s.fresh = .inr command) →
      (Channel.Task.calling call).commandsLeft = 1 → Nears strategy c tx rx b s := by
    rintro hjoined ⟨command, hcommand⟩ hone
    rw [hone] at hsendRoom
    have hs : (machine strategy).step s (.forward c) = some { s.resumed c w call with
        channelSendCommandRx := s.channelSendCommandRx ++ [command] } := by
      have hlt : s.channelSendCommandRx.length < socketCapacity := by omega
      simp [machine, System.step, forwardStep, h.listener, htask, h.running, hcommand, hlt, resumed,
        setChannel]
    have hw' : ({ s.resumed c w call with
        channelSendCommandRx := s.channelSendCommandRx ++ [command] } : System).channels.lookup c =
          some { w with
            task := .publishing (call.sent s.fresh).1
            effects := w.effects ++ (call.sent s.fresh).2 } := by
      simp [resumed]
    refine ⟨_, _, by simp [Label.ofListener], hs, .inr ⟨⟨_, h.step rfl rfl hw' ?_ rfl ?_⟩, ?_⟩⟩
    · rw [htask, hj]
      exact hjoined
    · refine hasRoom_iff.mpr ⟨hstateRoom, ?_⟩
      simp only [List.length_append, List.length_singleton, Channel.World.commandsLeft,
        Channel.Task.commandsLeft]
      omega
    · rw [workLeft_eq hw', workLeft_eq h.listener, htask]
      exact Nat.lt_succ_self _
  cases call with
  | join | leaveJoining => cases hj
  | cast joined' | call joined' => exact sends hj ⟨_, rfl⟩ rfl
  | leaveJoined joined' leftTx =>
      have hs : (machine strategy).step s (.forward c) = some
          { s.resumed c w (.leaveJoined joined' leftTx) with
            channelStateCommandRx := s.channelStateCommandRx ++
              [.leave ⟨w.listener.topic, w.listener.joinReference, s.fresh, leftTx⟩] } := by
        simp [machine, System.step, forwardStep, h.listener, htask, h.running,
          Channel.SocketCall.command, hstateRoom, resumed, setChannel]
      refine ⟨_, _, by simp [Label.ofListener], hs, .inl (.inr fun w' hw' => ?_)⟩
      obtain rfl : _ = w' := by simpa [resumed] using hw'
      rfl

theorem CanTake.nears_selecting {state : Channel.State} {rest disabled : List Channel.Branch}
    (h : CanTake c tx rx b s w) (htask : w.task = .selecting state rest disabled)
    (hrest : rest.head? ≠ some .broadcast) : Nears strategy c tx rx b s := by
  obtain ⟨joined, hj, rfl, hrx⟩ := h.member
  have henabled := h.enabled
  rw [htask] at hj henabled
  rw [Channel.joined?_selecting] at hj
  obtain rfl : state = .joined joined := by
    cases state <;> cases hj
    rfl
  obtain ⟨w', read, hpoll⟩ := Channel.poll_isSome s.surroundings htask
  have hs : (machine strategy).step s (.poll c) = some ((s.popPush read).setChannel c w') := by
    simp [machine, System.step, pollStep, h.listener, hpoll]
  have hw' : ((s.popPush read).setChannel c w').channels.lookup c = some w' := by
    rw [lookup_setChannel, if_pos rfl]
  have hcan : Channel.StaysJoined joined w w' →
      CanTake c joined.pushRx rx b ((s.popPush read).setChannel c w') w' := by
    intro hstays
    refine h.step (by simp [setChannel]) (by simp [setChannel]) hw' ?_ hstays.enabled ?_
    · rw [hstays.member, htask]
      rfl
    · rw [hasRoom_iff, hstays.commands]
      cases read <;> exact hasRoom_iff.mp h.room
  refine ⟨_, _, by simp [Label.ofListener], hs, ?_⟩
  rw [workLeft_eq hw', workLeft_eq h.listener]
  cases (Channel.poll_cases hpoll).reading htask (of_decide_eq_false henabled) hrest with
  | left hnone =>
      refine .inl (.inr fun w'' hw'' => ?_)
      rwa [← Option.some.inj (hw'.symm.trans hw'')]
  | polled hstays hread hstate hsend hlt =>
      subst hread
      refine .inr ⟨⟨_, hcan hstays⟩, ?_⟩
      rw [hstate, hsend]
      exact Nat.add_lt_add_left hlt _
  | command hstays hread hlength hle hpos =>
      subst hread
      refine .inr ⟨⟨_, hcan hstays⟩, ?_⟩
      simp only [popPush, setChannel]
      omega
  | @push push waiting hstays hread hpushes hstate hsend hle hpos =>
      subst hread
      refine .inr ⟨⟨_, hcan hstays⟩, ?_⟩
      have hqueue : s.pushRx joined.pushRx = push :: waiting := hpushes
      rw [hstate, hsend]
      simp only [popPush, setChannel, Function.update_self, hqueue, List.tail_cons, List.length_cons]
      omega

/-- While it can read a broadcast, the listener comes nearer to it by itself. -/
theorem CanTake.nears (h : CanTake c tx rx b s w) :
    TakesOrLeaves c tx b s ∨ Nears strategy c tx rx b s := by
  obtain ⟨joined, hj, htx, hrx⟩ := h.member
  cases htask : w.task with
  | publishing => exact .inr (h.nears_publishing htask)
  | calling => exact .inr (h.nears_calling htask)
  | selecting state rest disabled =>
      by_cases hrest : rest.head? = some .broadcast
      · obtain ⟨rest', rfl⟩ := List.head?_eq_some_iff.mp hrest
        rw [htask, Channel.joined?_selecting] at hj
        obtain rfl : state = .joined joined := by
          cases state <;> cases hj
          rfl
        have hnext := h.next
        subst htx hrx
        refine .inl (.inl ?_)
        simp [taken?, h.listener, Channel.World.takes, htask, surroundings, hnext]
      · exact .inr (h.nears_selecting htask hrest)
  | exited | panicked =>
      rw [htask] at hj
      cases hj

/-- A listener that can read a broadcast takes it by itself, unless it leaves. -/
theorem CanTake.takes (h : CanTake c tx rx b s w) :
    ∃ ls s', Run (machine strategy) (fun _ l => l.ofListener c = true) s ls s' ∧
      TakesOrLeaves c tx b s' := by
  refine exists_run_of_rank (I := fun s => ∃ w, CanTake c tx rx b s w) (workLeft c tx) ?_ ⟨w, h⟩
  rintro s ⟨w, h⟩
  exact h.nears

/-! ## What a member gets -/

/-- The messages that a member takes, and still can take, are the pushes that the web socket gave for
it and the broadcasts that it gave for its topic since its join was finished, both in the order in
which they came. Its events are those of the messages that it took. It takes a broadcast that waits
by itself, unless it leaves, as long as the socket has room for its commands. -/
structure EventsDelivered (strategy : Option (Nat → Duration)) (past : List (System × Label))
    (s : System) (c : JoinReference) (w : Channel.World) (joined : Channel.Joined) : Prop where
  pushes : pushesTaken joined.pushRx (deliveries past) ++ s.pushRx joined.pushRx ++
      s.inFlight joined.pushRx =
    Socket.pushesFor ⟨w.listener.topic, c⟩ (s.socket.trace.drop (joined.pushRx + 1))
  broadcasts : broadcastsTaken joined.pushRx (deliveries past) ++
      (s.broadcasts joined.broadcastRx.tx).unread joined.broadcastRx.next ++
      s.undelivered.filterMap (Socket.Effect.broadcast? joined.broadcastRx.tx) =
    Socket.broadcastsOn w.listener.topic (s.socket.trace.drop (joined.pushRx + 1))
  events : ∃ s₀ event, (s₀, .select event) ∈ past ∧ s₀.socket.trace.length = joined.pushRx ∧
    (s.eventPayloads c).sent = (s₀.eventPayloads c).sent ++
      ((deliveries past).filter fun d => d.member = joined.pushRx).map
        fun d => d.arrival.eventPayload
  takes : ∀ b, ((s.broadcasts joined.broadcastRx.tx).unread joined.broadcastRx.next).head? = some b →
    s.hasRoom w = true → ∃ ls s', Run (machine strategy) (fun _ l => l.ofListener c = true) s ls s' ∧
      TakesOrLeaves c joined.pushRx b s'

def DeliversEvents (strategy : Option (Nat → Duration)) (c : JoinReference)
    (past : List (System × Label)) (s : System) : Prop :=
  ∀ w joined, s.JoinedOn c w joined → EventsDelivered strategy past s c w joined

theorem deliversEvents_of_run
    (h : Run (machine strategy) (fun s l => keepsUp c s l = true) init ls s) :
    DeliversEvents strategy c ((machine strategy).steps init ls) s := by
  intro w joined hjoined
  have hread := hasRead_of_run h hjoined.receives
  refine ⟨hjoined.pushes h, hjoined.broadcasts h hread, eventPayloads_of_run h hjoined.holds, ?_⟩
  intro b hb hroom
  have hcan : CanTake c joined.pushRx joined.broadcastRx b s w := by
    refine ⟨hjoined.channel, ⟨joined, hjoined.member, rfl, rfl⟩, broadcastEnabled_of_run h hjoined,
      BroadcastQueue.recv_of_head? hread.inTime hb, ?_, hroom⟩
    exact isRunning_of_isConnected hjoined.connected
  exact hcan.takes

end PhoenixChannels.System
