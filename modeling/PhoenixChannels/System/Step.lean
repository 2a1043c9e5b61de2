import PhoenixChannels.System.State

/-!
# Steps of the client

Every task of the client is cut into steps at the points where another task can see what it has
done: each poll of a branch, each effect of a handler, each command that a queue takes. The steps of
all tasks interleave freely.
-/

namespace PhoenixChannels.System

/-! ## The socket listener -/

/-- A branch of the `select!` of the socket listener, with what the environment decides. The
commands come from the queues. -/
inductive SocketEvent
  | socketResult (result : Except WebSocketError SocketMessage) (sent : Except WebSocketError Unit)
  | channelSpawn (uuid : Uuid)
  | stateCommand (outcome : Socket.ConnectOutcome)
  | channelStateCommand (uuid : Uuid) (sent : Except WebSocketError Unit)
  | channelSendCommand (uuid : Uuid) (sent : Except WebSocketError Unit)
  | joinTimeout (index : Nat)
  | heartbeat (uuid : Uuid) (sent : Except WebSocketError Unit)
  | sleepElapsed (outcome : Socket.ConnectOutcome)
  | stop

/-- The input of the listener, and the queues without the command that it took. Whoever asked for a
channel still waits for it. -/
def receive (s : System) : SocketEvent → Option (Socket.Input × System)
  | .socketResult result sent => some (.socketResult result sent, s)
  | .channelSpawn uuid =>
      match s.channelSpawnRx with
      | spawn :: rest => some (.channelSpawn spawn uuid true, { s with channelSpawnRx := rest })
      | [] => none
  | .stateCommand outcome =>
      match s.stateCommandRx with
      | command :: rest => some (.stateCommand command outcome, { s with stateCommandRx := rest })
      | [] => none
  | .channelStateCommand uuid sent =>
      match s.channelStateCommandRx with
      | command :: rest =>
          some (.channelStateCommand command uuid sent, { s with channelStateCommandRx := rest })
      | [] => none
  | .channelSendCommand uuid sent =>
      match s.channelSendCommandRx with
      | command :: rest =>
          some (.channelSendCommand command uuid sent, { s with channelSendCommandRx := rest })
      | [] => none
  | .joinTimeout index => some (.joinTimeout index, s)
  | .heartbeat uuid sent => some (.heartbeat uuid sent, s)
  | .sleepElapsed outcome => some (.sleepElapsed outcome, s)
  | .stop => some (.stop, s)

/-- A listener that has ended drops its receivers with what is in them. -/
def setSocket (s : System) (w : Socket.World) : System :=
  if w.task.isRunning then { s with socket := w }
  else { s with
    socket := w
    stateCommandRx := []
    channelSpawnRx := []
    channelStateCommandRx := []
    channelSendCommandRx := [] }

def selectStep (strategy : Option (Nat → Duration)) (s : System) (event : SocketEvent) :
    Option System :=
  match s.receive event with
  | some (input, s) => (s.socket.step strategy (.select input)).map s.setSocket
  | none => none

/-- The next effect of the running handler becomes visible. A channel that is spawned subscribes to
the connectivity now. -/
def deliver (s : System) : Option System :=
  match s.socket.effects[s.delivered]? with
  | some (.spawned spawn joinReference state _) =>
      let listener : Channel.Listener :=
        { topic := spawn.topic, payload := spawn.payload.getD .empty, joinReference }
      some { s with
        delivered := s.delivered + 1
        channels := s.channels.insert joinReference
          (.spawn listener state s.connectivity.subscribe) }
  | some _ => some { s with delivered := s.delivered + 1 }
  | none => none

/-- `push_tx.send(push).await` goes on when the queue has room or the receiver is gone. -/
def pushedStep (strategy : Option (Nat → Duration)) (s : System) : Option System :=
  match s.socket.task with
  | .pushing _ tx push =>
      if s.pushRxAlive tx then
        if (s.pushRx tx).length < pushCapacity then
          (s.socket.step strategy .pushed).map (fun w => { s with
            socket := w
            pushRx := Function.update s.pushRx tx (s.pushRx tx ++ [push]) })
        else none
      else (s.socket.step strategy .pushed).map (fun w => { s with socket := w })
  | _ => none

/-- The status is published when the handler has performed all its effects. -/
def publishStep (strategy : Option (Nat → Duration)) (s : System) : Option System :=
  if s.delivered = s.socket.effects.length then
    (s.socket.step strategy .publish).map (fun w => { s with socket := w })
  else none

/-! ## The channel listeners -/

def setChannel (s : System) (c : JoinReference) (w : Channel.World) : System :=
  { s with channels := s.channels.insert c w }

def popPush (s : System) : Option TxId → System
  | some tx => { s with pushRx := Function.update s.pushRx tx (s.pushRx tx).tail }
  | none => s

def pollStep (s : System) (c : JoinReference) : Option System :=
  match s.channels.lookup c with
  | some w => (w.poll s.surroundings).map (fun (w, read) => (s.popPush read).setChannel c w)
  | none => none

/-- The queue of the socket takes the command of a suspended handler. -/
def forwardStep (s : System) (c : JoinReference) : Option System :=
  match s.channels.lookup c with
  | some w =>
      match w.task with
      | .calling call =>
          if s.socket.task.isRunning then
            let (state, effects) := call.sent s.fresh
            let s' := { s with fresh := s.fresh + 1 }.setChannel c
              { w with task := .publishing state, effects := w.effects ++ effects }
            match call.command w.listener s.fresh with
            | .inl command =>
                if s.channelStateCommandRx.length < socketCapacity then
                  some { s' with channelStateCommandRx := s.channelStateCommandRx ++ [command] }
                else none
            | .inr command =>
                if s.channelSendCommandRx.length < socketCapacity then
                  some { s' with channelSendCommandRx := s.channelSendCommandRx ++ [command] }
                else none
          else none
      | _ => none
  | none => none

/-- `listener_shutdown().await.unwrap_err()` on the socket, in the task of a channel listener whose
command found the queue closed. -/
def socketShutdownError (s : System) : Except Panic Socket.ShutdownError :=
  if s.joinHandle then
    match s.socket.task with
    | .exited (.error error) => .ok error
    | .exited (.ok ()) => .error .unwrapErr
    | _ => .error .propagated
  else .ok .alreadyJoined

def failStep (s : System) (c : JoinReference) : Option System :=
  match s.channels.lookup c with
  | some w =>
      match w.task with
      | .calling call =>
          if s.socket.task.isRunning then none
          else
            let flow := match s.socketShutdownError with
              | .ok error => call.failed error
              | .error reason => .panic reason
            some ({ s with joinHandle := false }.setChannel c (w.proceed flow))
      | _ => none
  | none => none

def publishChannelStep (s : System) (c : JoinReference) : Option System :=
  match s.channels.lookup c with
  | some w => w.publish.map (s.setChannel c)
  | none => none

/-! ## Calls of users -/

def setPhase (s : System) (i : Nat) (op : Operation) (phase : Phase) : System :=
  { s with operations := s.operations.set i { op with phase := phase } }

/-- `sender.send(command).await` of a call on the socket. -/
def sendToSocket (s : System) (i : Nat) (op : Operation) : Option System :=
  let next := { s with fresh := s.fresh + 1 }
  let enqueue (command : Socket.StateCommand) (phase : Phase) :=
    if s.stateCommandRx.length < socketCapacity then
      some ({ next with stateCommandRx := s.stateCommandRx ++ [command] }.setPhase i op phase)
    else none
  if s.socket.task.isRunning then
    match op.request with
    | .connect timeout =>
        enqueue (.connect ⟨op.createdAt, timeout, s.fresh⟩)
          (.waiting s.fresh (some (op.createdAt + timeout)))
    | .disconnect => enqueue (.disconnect s.fresh) (.waiting s.fresh none)
    | .shutdown => enqueue .shutdown .closing
    | .channel topic payload =>
        let spawn : Socket.ChannelSpawn := ⟨topic, payload, s.fresh⟩
        if s.channelSpawnRx.length < socketCapacity then
          some ({ next with channelSpawnRx := s.channelSpawnRx ++ [spawn] }.setPhase i op
            (.waiting s.fresh none))
        else none
    | _ => none
  else some (s.setPhase i op .closing)

/-- `sender.send(command).await` of a call on a channel. The timeouts of `join` and `call` start
when the command is in the queue. -/
def sendToChannel (s : System) (i : Nat) (op : Operation) (c : JoinReference) (w : Channel.World) :
    Option System :=
  let next := { s with fresh := s.fresh + 1 }
  let state (command : Channel.StateCommand) (deadline : Option Instant) :=
    if w.stateCommandRx.length < channelCapacity then
      some ((next.setChannel c { w with stateCommandRx := w.stateCommandRx ++ [command] }).setPhase
        i op (.waiting s.fresh deadline))
    else none
  let send (command : Channel.SendCommand) (phase : Phase) :=
    if w.sendCommandRx.length < channelCapacity then
      some ((next.setChannel c { w with sendCommandRx := w.sendCommandRx ++ [command] }).setPhase
        i op phase)
    else none
  match op.request with
  | .channelShutdown _ => some ((s.setChannel c { w with shutdownRx := true }).setPhase i op .closing)
  | request =>
      if w.task.isRunning then
        match request with
        | .channelJoin _ timeout =>
            state (.join op.createdAt timeout s.fresh) (some (s.socket.now + timeout))
        | .channelLeave _ => state (.leave s.fresh) none
        | .channelCast _ eventPayload => send (.cast eventPayload s.fresh) (.returned (.ok none))
        | .channelCall _ eventPayload timeout =>
            send (.call eventPayload s.fresh) (.waiting s.fresh (some (s.socket.now + timeout)))
        | _ => none
      else some (s.setPhase i op .closing)

/-- `join_handle.take()` in `listener_shutdown`. A handle that is gone makes it return
`AlreadyJoined`. -/
def takeHandle (s : System) (i : Nat) (op : Operation) : Option System :=
  match op.request.channel? with
  | none =>
      if s.joinHandle then some ({ s with joinHandle := false }.setPhase i op .joining)
      else some (s.setPhase i op (.returned (.error (.socketShutdown .alreadyJoined))))
  | some c =>
      match s.channels.lookup c with
      | some w =>
          if w.joinHandle then
            some ((s.setChannel c { w with joinHandle := false }).setPhase i op .joining)
          else some (s.setPhase i op (.returned (.error (.channelShutdown .alreadyJoined))))
      | none => none

/-- How the task ended whose join handle is awaited. -/
def taskResult (s : System) (op : Operation) : Option (Except Panic (Except ApiError Unit)) :=
  match op.request.channel? with
  | none =>
      match s.socket.task with
      | .exited result => some (.ok (result.mapError .socketShutdown))
      | .panicked => some (.error .propagated)
      | _ => none
  | some c =>
      match s.channels.lookup c with
      | some w =>
          match w.task with
          | .exited result => some (.ok (result.mapError .channelShutdown))
          | .panicked _ => some (.error .propagated)
          | _ => none
      | none => none

/-- What a call does with the result of `listener_shutdown`: `shutdown` returns it, all others
`unwrap_err` it. -/
def afterShutdown (request : Request) : Except Panic (Except ApiError Unit) → Phase
  | .ok (.ok ()) => if request.isShutdown then .returned (.ok none) else .panicked .unwrapErr
  | .ok (.error error) => .returned (.error error)
  | .error reason => .panicked reason

/-- The next step of a call. -/
def advanceStep (s : System) (i : Nat) : Option System :=
  match s.operations[i]? with
  | some op =>
      match op.phase with
      | .sending =>
          match op.request.channel? with
          | none => s.sendToSocket i op
          | some c =>
              match s.channels.lookup c with
              | some w => s.sendToChannel i op c w
              | none => none
      | .waiting tx _ =>
          match s.result tx with
          | .sent result => some (s.setPhase i op (.returned result))
          | .closed => some (s.setPhase i op .closing)
          | .pending => none
      | .closing => s.takeHandle i op
      | .joining => (s.taskResult op).map (fun r => s.setPhase i op (afterShutdown op.request r))
      | .returned _ | .panicked _ => none
  | none => none

/-- The timeout of a call elapses while it waits. -/
def expireStep (s : System) (i : Nat) : Option System :=
  match s.operations[i]? with
  | some op =>
      match op.phase with
      | .waiting _ (some deadline) =>
          if deadline ≤ s.socket.now then some (s.setPhase i op (.returned (.error .timeout)))
          else none
      | _ => none
  | none => none

/-- A user calls a function. A `Channel` can be used from the moment it was spawned until it is
dropped. -/
def beginStep (s : System) (request : Request) : Option System :=
  let s' := { s with operations := s.operations ++ [⟨request, s.socket.now, .sending⟩] }
  match request.channel? with
  | none => some s'
  | some c =>
      match s.channels.lookup c with
      | some w => if w.dropped then none else some s'
      | none => none

/-- The last reference to a `Channel` is dropped, when no call on it is running. -/
def dropStep (s : System) (c : JoinReference) : Option System :=
  match s.channels.lookup c with
  | some w =>
      if s.operations.all (fun op => op.phase.isOver || op.request.channel? != some c) then
        some (s.setChannel c { w with shutdownRx := true, dropped := true, joinHandle := false })
      else none
  | none => none

/-! ## All steps -/

inductive Label
  | elapse (duration : Duration)
  | begin (request : Request)
  | advance (operation : Nat)
  | expire (operation : Nat)
  | drop (channel : JoinReference)
  | select (event : SocketEvent)
  | deliver
  | pushed
  | publish
  | poll (channel : JoinReference)
  | forward (channel : JoinReference)
  | fail (channel : JoinReference)
  | publishChannel (channel : JoinReference)

def step (strategy : Option (Nat → Duration)) (s : System) : Label → Option System
  | .elapse duration =>
      (s.socket.step strategy (.elapse duration)).map (fun w => { s with socket := w })
  | .begin request => s.beginStep request
  | .advance i => s.advanceStep i
  | .expire i => s.expireStep i
  | .drop c => s.dropStep c
  | .select event => s.selectStep strategy event
  | .deliver => s.deliver
  | .pushed => s.pushedStep strategy
  | .publish => s.publishStep strategy
  | .poll c => s.pollStep c
  | .forward c => s.forwardStep c
  | .fail c => s.failStep c
  | .publishChannel c => s.publishChannelStep c

/-- The client with the given `ReconnectStrategy`. -/
def machine (strategy : Option (Nat → Duration)) : Machine System Label where
  step := step strategy

end PhoenixChannels.System
