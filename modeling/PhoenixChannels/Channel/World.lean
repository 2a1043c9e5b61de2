import PhoenixChannels.Channel.Listener
import PhoenixChannels.Lib.BroadcastQueue

/-!
# The task of a channel listener

The `select!` of each state polls its branches in the order in which they are written. A branch
that is ready with a value its pattern does not match is disabled until the `select!` finishes; when
all branches are disabled, `else` ends the listener.
-/

namespace PhoenixChannels.Channel

/-! ## What the listener waits on -/

/-- The receivers of the listener that others send to, at one instant. -/
structure Surroundings where
  now : Instant
  connectivity : BroadcastQueue Connectivity
  connectivityClosed : Bool
  joined : TxId → Oneshot (Except Socket.JoinError JoinedChannelReceivers)
  left : TxId → Oneshot (Except LeaveError Unit)
  memberLeft : TxId → Oneshot Unit
  pushes : TxId → List Push
  pushClosed : TxId → Bool
  broadcasts : TxId → BroadcastQueue Broadcast
  broadcastClosed : TxId → Bool

/-! ## The branches -/

inductive Branch
  | shutdown
  | connectivity
  | socketJoined
  | left
  | socketLeft
  | sleep
  | stateCommand
  | sendCommand
  | push
  | broadcast
deriving DecidableEq, Repr

/-- The branches of the `select!` in a state, in the order of its `biased` polling. -/
def State.branches : State → List Branch
  | waitingForSocketToConnect _ => [.shutdown, .connectivity]
  | waitingToJoin => [.shutdown, .connectivity, .stateCommand]
  | joining _ => [.shutdown, .socketJoined, .stateCommand]
  | waitingToRejoin _ _ => [.shutdown, .connectivity, .sleep, .stateCommand]
  | joined _ => [.shutdown, .connectivity, .left, .stateCommand, .sendCommand, .push, .broadcast]
  | leaving _ => [.shutdown, .connectivity, .socketLeft, .stateCommand]
  | left => [.shutdown, .connectivity, .stateCommand]
  | shuttingDown | shutDown => []

/-! ## The task -/

inductive Task
  /-- At the `select!`: the branches still to be polled in this round, and the disabled ones. -/
  | selecting (state : State) (rest disabled : List Branch)
  /-- Suspended in a call into the socket. -/
  | calling (call : SocketCall)
  /-- The handler has returned this state, its status is not yet published. -/
  | publishing (state : State)
  | exited (result : Except ShutdownError Unit)
  | panicked (reason : Panic)

namespace Task

/-- The task at the beginning of a `select!`. -/
def select (state : State) : Task := selecting state state.branches []

def isRunning : Task → Bool
  | exited _ | panicked _ => false
  | _ => true

end Task

/-- A channel listener with what belongs to it alone. -/
structure World where
  listener : Listener
  task : Task
  status : Status
  /-- The position of `socket_connectivity_rx`. -/
  seen : Nat
  /-- `shutdown_rx` is ready: `shutdown` was called, or the `Channel` was dropped. -/
  shutdownRx : Bool
  /-- The `Channel`, with its senders, was dropped. -/
  dropped : Bool
  /-- The join handle of the task was not taken yet. -/
  joinHandle : Bool
  stateCommandRx : List StateCommand
  sendCommandRx : List SendCommand
  /-- All that the listener has done so far. -/
  effects : List Effect

namespace World

/-- The listener that `Channel::spawn` starts. -/
def spawn (listener : Listener) (state : State) (seen : Nat) : World where
  listener
  task := .select state
  status := state.status
  seen
  shutdownRx := false
  dropped := false
  joinHandle := true
  stateCommandRx := []
  sendCommandRx := []
  effects := []

/-- The end of the task, which drops the receivers of the command queues. -/
def finish (w : World) (task : Task) (effects : List Effect) : World :=
  { w with task, stateCommandRx := [], sendCommandRx := [], effects := w.effects ++ effects }

/-- `break Ok(())` -/
def breakOk (w : World) : World :=
  { w.finish (.exited (.ok ())) [] with status := .shutDown }

/-- What a handler comes to. -/
def proceed (w : World) : Flow → World
  | .next state effects => { w with task := .publishing state, effects := w.effects ++ effects }
  | .call call => { w with task := .calling call }
  | .exit error effects => w.finish (.exited (.error error)) effects
  | .panic reason => w.finish (.panicked reason) []

/-- The outcome of polling one branch. -/
inductive Polled
  | pending
  /-- Ready, but not with what the pattern says; the receiver may have moved. -/
  | mismatch (w : World) (state : State)
  | ready (w : World) (flow : Flow)

/-- A handler that cannot suspend. -/
def readyNext (w : World) (next : State × List Effect) : Polled := .ready w (.next next.1 next.2)

/-- Polls a branch of the `select!` in `state`. -/
def pollBranch (env : Surroundings) (w : World) (state : State) (branch : Branch) : Polled :=
  match branch with
  | .shutdown => if w.shutdownRx then w.readyNext (Channel.shutdown state) else .pending
  | .connectivity =>
      match env.connectivity.recv w.seen with
      | (.message connectivity, seen) =>
          { w with seen := seen }.readyNext (connectivityChanged env.now state connectivity)
      | (.lagged _, seen) => .mismatch { w with seen := seen } state
      | (.empty, _) => if env.connectivityClosed then .mismatch w state else .pending
  | .socketJoined =>
      match state with
      | .joining joining =>
          match env.joined joining.socketJoinedRx with
          | .sent result => .ready w (joinedResultResultReceived env.now joining (.ok result))
          | .closed => .ready w (joinedResultResultReceived env.now joining (.error .closed))
          | .pending => .pending
      | _ => .pending
  | .left =>
      match state with
      | .joined joined =>
          match env.memberLeft joined.leftRx with
          | .sent () => .ready w (.next .left [])
          | .closed => .mismatch w state
          | .pending => .pending
      | _ => .pending
  | .socketLeft =>
      match state with
      | .leaving leaving =>
          match env.left leaving.socketLeftRx with
          | .sent result => w.readyNext (leaving.left result)
          | .closed => .mismatch w state
          | .pending => .pending
      | _ => .pending
  | .sleep =>
      match state with
      | .waitingToRejoin sleep r =>
          if sleep ≤ env.now then .ready w (rejoin env.now state r) else .pending
      | _ => .pending
  | .stateCommand =>
      match w.stateCommandRx with
      | command :: rest =>
          .ready { w with stateCommandRx := rest } (updateState env.now state command)
      | [] => if w.dropped then .mismatch w state else .pending
  | .sendCommand =>
      match state, w.sendCommandRx with
      | .joined joined, command :: rest =>
          .ready { w with sendCommandRx := rest } (send joined command)
      | _, _ => if w.dropped then .mismatch w state else .pending
  | .push =>
      match state with
      | .joined joined =>
          match env.pushes joined.pushRx with
          | push :: _ => w.readyNext (pushReceived env.now joined push)
          | [] => if env.pushClosed joined.pushRx then .mismatch w state else .pending
      | _ => .pending
  | .broadcast =>
      match state with
      | .joined joined =>
          let rx := joined.broadcastRx
          match (env.broadcasts rx.tx).recv rx.next with
          | (.message broadcast, next) =>
              w.readyNext
                (broadcastReceived { joined with broadcastRx := { rx with next := next } } broadcast)
          | (.lagged _, next) =>
              .mismatch w (.joined { joined with broadcastRx := { rx with next := next } })
          | (.empty, _) => if env.broadcastClosed rx.tx then .mismatch w state else .pending
      | _ => .pending

/-- The push queue that a branch which is ready has read. -/
def pushRead (state : State) (branch : Branch) : Option TxId :=
  match state, branch with
  | .joined joined, .push => some joined.pushRx
  | _, _ => none

/-- One poll of the `select!`, with the push queue that it read. -/
def poll (env : Surroundings) (w : World) : Option (World × Option TxId) :=
  match w.task with
  | .selecting state rest disabled =>
      match rest with
      | [] =>
          -- `ShuttingDown` and `ShutDown` have no `select!` and break at once
          if state.branches.all (fun branch => branch ∈ disabled) then some (w.breakOk, none)
          else
            let rest := state.branches.filter (fun branch => branch ∉ disabled)
            some ({ w with task := .selecting state rest disabled }, none)
      | branch :: rest =>
          match w.pollBranch env state branch with
          | .pending => some ({ w with task := .selecting state rest disabled }, none)
          | .mismatch w state =>
              some ({ w with task := .selecting state rest (branch :: disabled) }, none)
          | .ready w flow => some (w.proceed flow, pushRead state branch)
  | _ => none

/-- `channel_status.set(next_state.status())`, and the next `select!` begins. -/
def publish (w : World) : Option World :=
  match w.task with
  | .publishing state => some { w with task := .select state, status := state.status }
  | _ => none

end World

end PhoenixChannels.Channel
