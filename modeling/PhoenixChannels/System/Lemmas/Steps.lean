import PhoenixChannels.Channel.Lemmas.Polls
import PhoenixChannels.System.Step

/-!
# What a step of the client can do

The steps with the parts of the state that each of them changes. The invariants of the client are
proved by cases on these relations.
-/

namespace PhoenixChannels

/-- The oneshot channel or the ticket that a caller made for a command. -/
def Channel.SendCommand.id : Channel.SendCommand → TxId
  | cast _ ticket => ticket
  | call _ replyTx => replyTx

/-- A shutdown that was asked for stays asked for, and a drop asks for it. -/
structure Channel.World.Asked (w : World) (shutdownRx dropped : Bool) : Prop where
  shutdown : w.shutdownRx = true → shutdownRx = true
  stays : w.dropped = true → dropped = true
  drops : dropped = true → w.dropped = true ∨ shutdownRx = true

namespace System

/-- What a step of a user's call changes: nothing but the calls, the join handles, and the receiving
ends of the queues that users send into. -/
inductive UserStep (s : System) : System → Prop
  | caller {operations joinHandle} : UserStep s { s with operations, joinHandle }
  | socketCommand {command operations} : s.socket.task.isRunning = true →
      (∀ tx, command.tx? = some tx → tx = s.fresh) →
      UserStep s { s with
        operations
        stateCommandRx := s.stateCommandRx ++ [command]
        fresh := s.fresh + 1 }
  | channelSpawn {spawn operations} : s.socket.task.isRunning = true → spawn.sender = s.fresh →
      UserStep s { s with
        operations
        channelSpawnRx := s.channelSpawnRx ++ [spawn]
        fresh := s.fresh + 1 }
  | channel {c w operations shutdownRx dropped joinHandle} : s.channels.lookup c = some w →
      w.Asked shutdownRx dropped →
      UserStep s { s.setChannel c { w with shutdownRx, dropped, joinHandle } with operations }
  | stateCommand {c w command operations} : s.channels.lookup c = some w →
      w.task.isRunning = true → w.stateCommandRx.length < channelCapacity →
      command.tx = s.fresh →
      UserStep s { s.setChannel c { w with stateCommandRx := w.stateCommandRx ++ [command] } with
        operations
        fresh := s.fresh + 1 }
  | sendCommand {c w command operations} : s.channels.lookup c = some w →
      w.task.isRunning = true → w.sendCommandRx.length < channelCapacity →
      command.id = s.fresh →
      UserStep s { s.setChannel c { w with sendCommandRx := w.sendCommandRx ++ [command] } with
        operations
        fresh := s.fresh + 1 }

/-- A channel listener goes on after its command was taken. -/
def resumed (s : System) (c : JoinReference) (w : Channel.World) (call : Channel.SocketCall) :
    System :=
  { s with fresh := s.fresh + 1 }.setChannel c { w with
    task := .publishing (call.sent s.fresh).1
    effects := w.effects ++ (call.sent s.fresh).2 }

/-- The input that the socket listener gets, with the queues without what it took. -/
inductive Receive (s : System) : SocketEvent → Socket.Input → System → Prop
  | channelSpawn {uuid spawn rest} : s.channelSpawnRx = spawn :: rest →
      Receive s (.channelSpawn uuid) (.channelSpawn spawn uuid true)
        { s with channelSpawnRx := rest }
  | stateCommand {outcome command rest} : s.stateCommandRx = command :: rest →
      Receive s (.stateCommand outcome) (.stateCommand command outcome)
        { s with stateCommandRx := rest }
  | channelStateCommand {uuid sent command rest} : s.channelStateCommandRx = command :: rest →
      Receive s (.channelStateCommand uuid sent) (.channelStateCommand command uuid sent)
        { s with channelStateCommandRx := rest }
  | channelSendCommand {uuid sent command rest} : s.channelSendCommandRx = command :: rest →
      Receive s (.channelSendCommand uuid sent) (.channelSendCommand command uuid sent)
        { s with channelSendCommandRx := rest }
  | socketResult {result sent} : Receive s (.socketResult result sent) (.socketResult result sent) s
  | joinTimeout {index} : Receive s (.joinTimeout index) (.joinTimeout index) s
  | heartbeat {uuid sent} : Receive s (.heartbeat uuid sent) (.heartbeat uuid sent) s
  | sleepElapsed {outcome} : Receive s (.sleepElapsed outcome) (.sleepElapsed outcome) s
  | stop : Receive s .stop .stop s

/-- The steps of users' calls. -/
def Label.isUser : Label → Bool
  | begin _ | advance _ | expire _ | drop _ => true
  | _ => false

/-- All that a step can come to. -/
inductive SystemStep (strategy : Option (Nat → Duration)) (s : System) : Label → System → Prop
  | elapse (duration : Duration) :
      SystemStep strategy s (.elapse duration)
        { s with socket := { s.socket with now := s.socket.now + duration } }
  | user {label s'} : label.isUser = true → UserStep s s' → SystemStep strategy s label s'
  | select {event input taken socket} : Receive s event input taken →
      (Socket.machine strategy).step s.socket (.select input) = some socket →
      SystemStep strategy s (.select event) (taken.setSocket socket)
  | spawned {spawn c state sent} :
      s.socket.effects[s.delivered]? = some (.spawned spawn c state sent) →
      SystemStep strategy s .deliver { s with
        delivered := s.delivered + 1
        channels := s.channels.insert c (.spawn
          { topic := spawn.topic, payload := spawn.payload.getD .empty, joinReference := c }
          state s.connectivity.subscribe) }
  | delivered {effect} : s.socket.effects[s.delivered]? = some effect →
      SystemStep strategy s .deliver { s with delivered := s.delivered + 1 }
  | pushed {connected tx push} : s.socket.task = .pushing connected tx push →
      s.pushRxAlive tx = true → (s.pushRx tx).length < pushCapacity →
      SystemStep strategy s .pushed { s with
        socket := { s.socket with task := .publishing (.connected connected) }
        pushRx := Function.update s.pushRx tx (s.pushRx tx ++ [push]) }
  | pushedClosed {connected tx push} : s.socket.task = .pushing connected tx push →
      s.pushRxAlive tx = false →
      SystemStep strategy s .pushed
        { s with socket := { s.socket with task := .publishing (.connected connected) } }
  | publish {state} : s.socket.task = .publishing state →
      s.delivered = s.socket.effects.length →
      SystemStep strategy s .publish
        { s with socket := { s.socket with task := .selecting state, status := state.status } }
  | poll {c w w' read} : s.channels.lookup c = some w →
      Channel.PollStep s.surroundings w w' read →
      SystemStep strategy s (.poll c) ((s.popPush read).setChannel c w')
  | forwardState {c w call command} : s.channels.lookup c = some w → w.task = .calling call →
      s.socket.task.isRunning = true → call.command w.listener s.fresh = .inl command →
      s.channelStateCommandRx.length < socketCapacity →
      SystemStep strategy s (.forward c) { s.resumed c w call with
        channelStateCommandRx := s.channelStateCommandRx ++ [command] }
  | forwardSend {c w call command} : s.channels.lookup c = some w → w.task = .calling call →
      s.socket.task.isRunning = true → call.command w.listener s.fresh = .inr command →
      s.channelSendCommandRx.length < socketCapacity →
      SystemStep strategy s (.forward c) { s.resumed c w call with
        channelSendCommandRx := s.channelSendCommandRx ++ [command] }
  | fail {c w call flow} : s.channels.lookup c = some w → w.task = .calling call →
      s.socket.task.isRunning = false →
      (∃ error, s.socketShutdownError = .ok error ∧ flow = call.failed error) ∨
        (∃ reason, s.socketShutdownError = .error reason ∧ flow = .panic reason) →
      SystemStep strategy s (.fail c) ({ s with joinHandle := false }.setChannel c (w.proceed flow))
  | publishChannel {c w state} : s.channels.lookup c = some w → w.task = .publishing state →
      SystemStep strategy s (.publishChannel c)
        (s.setChannel c { w with task := .select state, status := state.status })

variable {strategy : Option (Nat → Duration)} {s s' taken : System} {label : Label}
variable {event : SocketEvent} {input : Socket.Input}

theorem receive_cases (h : s.receive event = some (input, taken)) :
    Receive s event input taken := by
  cases event <;> simp only [receive] at h
  case channelSpawn | stateCommand | channelStateCommand | channelSendCommand =>
    split at h <;> cases h
    constructor
    assumption
  all_goals
    cases h
    constructor

theorem Receive.socket_eq (h : Receive s event input taken) : taken.socket = s.socket := by
  cases h <;> rfl

/-! ## Calls of users -/

theorem beginStep_cases {request : Request} (h : s.beginStep request = some s') : UserStep s s' := by
  unfold beginStep at h
  simp only [] at h
  split at h
  · cases h
    exact .caller
  · split at h
    · split at h
      · cases h
      · cases h
        exact .caller
    · cases h

theorem dropStep_cases {c : JoinReference} (h : s.dropStep c = some s') : UserStep s s' := by
  unfold dropStep at h
  split at h
  · rename_i w hw
    split at h
    · cases h
      exact .channel hw ⟨fun _ => rfl, fun _ => rfl, fun _ => .inr rfl⟩
    · cases h
  · cases h

theorem expireStep_cases {i : Nat} (h : s.expireStep i = some s') : UserStep s s' := by
  unfold expireStep at h
  repeat' split at h
  all_goals cases h
  exact .caller

theorem sendToSocket_cases {i : Nat} {op : Operation} (h : s.sendToSocket i op = some s') :
    UserStep s s' := by
  unfold sendToSocket at h
  simp only [] at h
  repeat' split at h
  all_goals cases h
  case isFalse => exact .caller
  · exact .socketCommand ‹_› (by simp [Socket.StateCommand.tx?])
  · exact .socketCommand ‹_› (by simp [Socket.StateCommand.tx?])
  · exact .socketCommand ‹_› (by simp [Socket.StateCommand.tx?])
  · exact .channelSpawn ‹_› rfl

theorem sendToChannel_cases {i : Nat} {op : Operation} {c : JoinReference} {w : Channel.World}
    (hw : s.channels.lookup c = some w) (h : s.sendToChannel i op c w = some s') :
    UserStep s s' := by
  unfold sendToChannel at h
  simp only [] at h
  split at h
  · cases h
    exact .channel hw ⟨fun _ => rfl, id, .inl⟩
  · split at h
    · rename_i hrunning
      split at h
      · split at h
        · cases h
          exact .stateCommand hw hrunning ‹_› rfl
        · cases h
      · split at h
        · cases h
          exact .stateCommand hw hrunning ‹_› rfl
        · cases h
      · split at h
        · cases h
          exact .sendCommand hw hrunning ‹_› rfl
        · cases h
      · split at h
        · cases h
          exact .sendCommand hw hrunning ‹_› rfl
        · cases h
      · cases h
    · cases h
      exact .caller

theorem takeHandle_cases {i : Nat} {op : Operation} (h : s.takeHandle i op = some s') :
    UserStep s s' := by
  unfold takeHandle at h
  split at h
  · split at h <;> cases h <;> exact .caller
  · split at h
    · rename_i w hw
      split at h <;> cases h
      · exact .channel hw ⟨id, id, .inl⟩
      · exact .caller
    · cases h

theorem advanceStep_cases {i : Nat} (h : s.advanceStep i = some s') : UserStep s s' := by
  unfold advanceStep at h
  split at h
  · rename_i op hop
    split at h
    · split at h
      · exact sendToSocket_cases h
      · split at h
        · exact sendToChannel_cases ‹_› h
        · cases h
    · split at h <;> cases h <;> exact .caller
    · exact takeHandle_cases h
    · obtain ⟨r, _, rfl⟩ := Option.map_eq_some_iff.mp h
      exact .caller
    · cases h
    · cases h
  · cases h

/-! ## All steps -/

theorem deliver_cases (h : s.deliver = some s') : SystemStep strategy s .deliver s' := by
  unfold deliver at h
  split at h
  · cases h
    exact .spawned ‹_›
  · cases h
    exact .delivered ‹_›
  · cases h

theorem pushedStep_cases (h : s.pushedStep strategy = some s') :
    SystemStep strategy s .pushed s' := by
  unfold pushedStep at h
  split at h
  · rename_i connected tx push htask
    simp only [Socket.World.step, htask, Option.map_some] at h
    split at h
    · split at h
      · cases h
        exact .pushed htask ‹_› ‹_›
      · cases h
    · cases h
      exact .pushedClosed htask (by simpa using ‹¬ s.pushRxAlive tx = true›)
  · cases h

theorem publishStep_cases (h : s.publishStep strategy = some s') :
    SystemStep strategy s .publish s' := by
  unfold publishStep at h
  split at h
  · rename_i hdelivered
    simp only [Socket.World.step] at h
    split at h
    · cases h
      exact .publish ‹_› hdelivered
    · cases h
  · cases h

theorem forwardStep_cases {c : JoinReference} (h : s.forwardStep c = some s') :
    SystemStep strategy s (.forward c) s' := by
  unfold forwardStep at h
  split at h
  · rename_i w hw
    split at h
    · rename_i call htask
      split at h
      · rename_i hrunning
        simp only [] at h
        split at h
        · split at h
          · cases h
            exact .forwardState hw htask hrunning ‹_› ‹_›
          · cases h
        · split at h
          · cases h
            exact .forwardSend hw htask hrunning ‹_› ‹_›
          · cases h
      · cases h
    · cases h
  · cases h

theorem failStep_cases {c : JoinReference} (h : s.failStep c = some s') :
    SystemStep strategy s (.fail c) s' := by
  unfold failStep at h
  split at h
  · rename_i w hw
    split at h
    · rename_i call htask
      split at h
      · cases h
      · rename_i hrunning
        cases h
        refine .fail hw htask (by simpa using hrunning) ?_
        split
        · exact .inl ⟨_, ‹_›, rfl⟩
        · exact .inr ⟨_, ‹_›, rfl⟩
    · cases h
  · cases h

theorem step_cases (h : (machine strategy).step s label = some s') :
    SystemStep strategy s label s' := by
  simp only [machine, step] at h
  cases label with
  | elapse duration =>
      cases h
      exact .elapse duration
  | begin request => exact .user rfl (beginStep_cases h)
  | advance i => exact .user rfl (advanceStep_cases h)
  | expire i => exact .user rfl (expireStep_cases h)
  | drop c => exact .user rfl (dropStep_cases h)
  | select event =>
      simp only [selectStep] at h
      split at h
      · rename_i input taken hreceive
        obtain ⟨w, hw, rfl⟩ := Option.map_eq_some_iff.mp h
        have htaken := receive_cases hreceive
        rw [htaken.socket_eq] at hw
        exact .select htaken hw
      · cases h
  | deliver => exact deliver_cases h
  | pushed => exact pushedStep_cases h
  | publish => exact publishStep_cases h
  | poll c =>
      simp only [pollStep] at h
      split at h
      · rename_i w hw
        obtain ⟨⟨w', read⟩, hpoll, rfl⟩ := Option.map_eq_some_iff.mp h
        exact .poll hw (Channel.poll_cases hpoll)
      · cases h
  | forward c => exact forwardStep_cases h
  | fail c => exact failStep_cases h
  | publishChannel c =>
      simp only [publishChannelStep, Channel.World.publish] at h
      split at h
      · rename_i w hw
        split at h
        · cases h
          exact .publishChannel hw ‹_›
        · cases h
      · cases h

end System

end PhoenixChannels
