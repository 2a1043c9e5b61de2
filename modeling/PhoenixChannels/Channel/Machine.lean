import PhoenixChannels.Channel.Lemmas.Polls
import PhoenixChannels.Lib.Machine
import PhoenixChannels.Socket.Listener

/-!
# A channel listener by itself

The listener as a machine whose environment is free: the commands of its callers, what it finds when
it polls, and what becomes of its calls into the socket.
-/

namespace PhoenixChannels.Channel

inductive Label
  /-- Somebody shuts the listener down, drops the `Channel` or takes the join handle. -/
  | asked (shutdownRx dropped joinHandle : Bool)
  | stateCommand (command : StateCommand)
  | sendCommand (command : SendCommand)
  | poll (env : Surroundings)
  /-- The queue of the socket takes the command of the suspended handler. -/
  | sent (fresh : TxId)
  /-- The socket listener is gone, with what `listener_shutdown().await.unwrap_err()` gives. -/
  | failed (shutdownError : Except Panic Socket.ShutdownError)
  | publish

namespace World

def sent (w : World) (fresh : TxId) (call : SocketCall) : World :=
  { w with
    task := .publishing (call.sent fresh).1
    effects := w.effects ++ (call.sent fresh).2 }

def failed (w : World) (call : SocketCall) : Except Panic Socket.ShutdownError → World
  | .ok shutdownError => w.proceed (call.failed shutdownError)
  | .error reason => w.proceed (.panic reason)

def step (w : World) : Label → Option World
  | .asked shutdownRx dropped joinHandle =>
      some { w with
        shutdownRx := w.shutdownRx || shutdownRx || (dropped && !w.dropped)
        dropped := w.dropped || dropped
        joinHandle }
  | .stateCommand command =>
      if w.task.isRunning then some { w with stateCommandRx := w.stateCommandRx ++ [command] }
      else none
  | .sendCommand command =>
      if w.task.isRunning then some { w with sendCommandRx := w.sendCommandRx ++ [command] }
      else none
  | .poll env => (w.poll env).map Prod.fst
  | .sent fresh =>
      match w.task with
      | .calling call => some (w.sent fresh call)
      | _ => none
  | .failed shutdownError =>
      match w.task with
      | .calling call => some (w.failed call shutdownError)
      | _ => none
  | .publish => w.publish

end World

def machine : Machine World Label where
  step := World.step

/-- The listener that the socket listener spawns in the state `before`. -/
def start (listener : Listener) (before : Socket.State) (seen : Nat) : World :=
  .spawn listener (Socket.channelState before) seen

/-- The branch that a poll of the listener is about, with the state it is in. -/
def polled (w : World) : Label → Option (Surroundings × State × Branch)
  | .poll env =>
      match w.task with
      | .selecting state (branch :: _) _ => some (env, state, branch)
      | _ => none
  | _ => none

/-- A join that is processed in these states starts a joining attempt: it is sent to the socket, or
waits to be sent if its deadline has passed. -/
def State.startsJoin : State → Bool
  | waitingToJoin | leaving _ | left => true
  | _ => false

/-- The command that a step gives to the socket. -/
def given (w : World) : Label → Option (ChannelStateCommand ⊕ ChannelSendCommand)
  | .sent fresh =>
      match w.task with
      | .calling call => some (call.command w.listener fresh)
      | _ => none
  | _ => none

/-! ## What a step can do -/

/-- All that a step can come to. -/
inductive Step (w : World) : Label → World → Prop
  | asked {shutdownRx dropped joinHandle} :
      Step w (.asked shutdownRx dropped joinHandle) { w with
        shutdownRx := w.shutdownRx || shutdownRx || (dropped && !w.dropped)
        dropped := w.dropped || dropped
        joinHandle }
  | stateCommand {command} : w.task.isRunning = true →
      Step w (.stateCommand command) { w with stateCommandRx := w.stateCommandRx ++ [command] }
  | sendCommand {command} : w.task.isRunning = true →
      Step w (.sendCommand command) { w with sendCommandRx := w.sendCommandRx ++ [command] }
  | poll {env w' read} : PollStep env w w' read → Step w (.poll env) w'
  | sent {call fresh} : w.task = .calling call → Step w (.sent fresh) (w.sent fresh call)
  | failed {call shutdownError} : w.task = .calling call →
      Step w (.failed shutdownError) (w.failed call shutdownError)
  | publish {state} : w.task = .publishing state →
      Step w .publish { w with task := .select state, status := state.status }

theorem pollBranch_stateCommand {env : Surroundings} {w : World} {state : State}
    {command : StateCommand} {rest : List StateCommand} (hrx : w.stateCommandRx = command :: rest) :
    w.pollBranch env state .stateCommand =
      .ready { w with stateCommandRx := rest } (updateState env.now state command) := by
  simp [World.pollBranch, hrx]

theorem step_cases {w w' : World} {label : Label} (h : machine.step w label = some w') :
    Step w label w' := by
  cases label <;> simp only [machine, World.step, World.publish] at h
  case asked =>
      cases h
      exact .asked
  case stateCommand command =>
      split at h <;> cases h
      exact .stateCommand ‹_›
  case sendCommand command =>
      split at h <;> cases h
      exact .sendCommand ‹_›
  case poll env =>
      obtain ⟨⟨w'', read⟩, hpoll, rfl⟩ := Option.map_eq_some_iff.mp h
      exact .poll (poll_cases hpoll)
  case sent fresh =>
      split at h <;> cases h
      exact .sent ‹_›
  case failed shutdownError =>
      split at h <;> cases h
      exact .failed ‹_›
  case publish =>
      split at h <;> cases h
      exact .publish ‹_›

end PhoenixChannels.Channel
