import PhoenixChannels.Lib.Machine
import PhoenixChannels.Socket.Listener

/-!
# The socket listener as a machine

The task of the listener with everything around it left open: any branch of the `select!` may
become ready with anything that can arrive there. The trace records each iteration of the loop.
-/

namespace PhoenixChannels.Socket

/-- Where the task of the listener is. -/
inductive Task
  /-- At the `select!`; the status of the state is published. -/
  | selecting (state : State)
  /-- Inside `push_tx.send(push).await`, which is pending while the push queue is full. -/
  | pushing (connected : Connected) (pushTx : TxId) (push : Push)
  /-- The handler has returned this state, its status is not yet published. -/
  | publishing (state : State)
  | exited (result : Except ShutdownError Unit)
  | panicked

namespace Task

/-- The state the listener is in, as long as it runs. -/
def state : Task → Option State
  | selecting state => some state
  | pushing connected _ _ => some (.connected connected)
  | publishing state => some state
  | exited _ | panicked => none

/-- The connection of the listener. -/
def connection (task : Task) : Option Connected :=
  match task.state with
  | some (.connected connected) => some connected
  | _ => none

def isConnected (task : Task) : Bool := task.connection.isSome

def isRunning (task : Task) : Bool := task.state.isSome

@[simp] theorem state_selecting (state : State) : (selecting state).state = some state := rfl

@[simp] theorem state_publishing (state : State) : (publishing state).state = some state := rfl

@[simp] theorem connection_pushing (c : Connected) (tx : TxId) (p : Push) :
    (pushing c tx p).connection = some c := rfl

theorem connection_eq_some {task : Task} {connected : Connected} :
    task.connection = some connected ↔ task.state = some (.connected connected) := by
  unfold connection
  split
  · rename_i c hc
    simp [hc]
  · rename_i hne
    constructor
    · simp
    · intro h; exact absurd h (hne _)

end Task

/-- One iteration of the loop: when it ran, in which state it began, the branch it took, and what
its handler did. -/
structure Entry where
  time : Instant
  before : State
  input : Input
  effects : List Effect

structure World where
  now : Instant
  task : Task
  status : Status
  /-- The next `TxId` for the channels of a finished join. -/
  fresh : TxId
  /-- The uuids drawn so far. -/
  uuids : List Uuid
  trace : List Entry

def World.init : World where
  now := 0
  task := .selecting .neverConnected
  status := .neverConnected
  fresh := 0
  uuids := []
  trace := []

inductive Label
  | elapse (duration : Duration)
  | select (input : Input)
  /-- The push queue took the push, or its receiver is gone. -/
  | pushed
  /-- `socket_status.set(next_state.status())`, and the next iteration begins. -/
  | publish

namespace World

/-- The task and the effects after an iteration. -/
def outcome : Iteration → Task × List Effect
  | .next state effects => (.publishing state, effects)
  | .push connected pushTx push => (.pushing connected pushTx push, [])
  | .exit result => (.exited result, [])
  | .panic => (.panicked, [])

/-- `socket_status` after an iteration: `break` sets it before the task ends, `?` does not. -/
def statusAfter (status : Status) : Iteration → Status
  | .exit (.ok ()) => .shutDown
  | _ => status

def record (w : World) (before : State) (input : Input) (iteration : Iteration) : World :=
  { w with
    task := (outcome iteration).1
    status := statusAfter w.status iteration
    fresh := w.fresh + 1
    uuids := w.uuids ++ input.uuid?.toList
    trace := w.trace ++ [⟨w.now, before, input, (outcome iteration).2⟩] }

/-- A uuid is drawn at most once. -/
def uuidFresh (w : World) (input : Input) : Bool := input.uuid?.all (fun u => !w.uuids.contains u)

def step (strategy : Option (Nat → Duration)) (w : World) : Label → Option World
  | .elapse duration => some { w with now := w.now + duration }
  | .select input =>
      match w.task with
      | .selecting state =>
          if w.uuidFresh input then
            (Socket.select strategy w.now w.fresh state input).map (w.record state input)
          else none
      | _ => none
  | .pushed =>
      match w.task with
      | .pushing connected _ _ => some { w with task := .publishing (.connected connected) }
      | _ => none
  | .publish =>
      match w.task with
      | .publishing state => some { w with task := .selecting state, status := state.status }
      | _ => none

end World

/-- The socket listener with the given `ReconnectStrategy`. -/
def machine (strategy : Option (Nat → Duration)) : Machine World Label where
  step := World.step strategy

/-- The effects of all iterations, in order. -/
def World.effects (w : World) : List Effect := w.trace.flatMap Entry.effects

def Effect.connectivity? : Effect → Option Connectivity
  | connectivity c => some c
  | _ => none

/-- The connectivity changes in a list of effects. -/
def connectivities (effects : List Effect) : List Connectivity :=
  effects.filterMap Effect.connectivity?

end PhoenixChannels.Socket
