import PhoenixChannels.Presences.World

/-!
# The calls of users on a presence listener

`ffi/presences.rs`: `list`, which is answered by the listener through a `oneshot` channel, `shutdown`,
and the receivers of `syncs`. The senders of the listener live as long as `Presences` does, so that
no receiver of `syncs` comes to an end before `Presences` is dropped.
-/

namespace PhoenixChannels.Presences

/-- What is sent into `sync_tx`. -/
def Event.sync? : Event → Option Unit
  | sync => some ()
  | _ => none

/-- `PresencesShutdownError` -/
inductive ShutdownError
  | alreadyJoined
deriving DecidableEq, Repr

inductive Request
  | list
  | shutdown
deriving DecidableEq, Repr

/-- What a call returns: a list, or nothing. -/
abbrev Result := Except ShutdownError (Option (List Presence))

inductive Phase
  /-- Before the sender is in the queue, or `shutdown_tx` is taken. -/
  | sending
  /-- Awaits the list. -/
  | waiting
  /-- In `listener_shutdown`, before the join handle is taken. -/
  | closing
  /-- In `listener_shutdown`, awaiting the join handle it took. -/
  | joining
  | returned (result : Result)

def Phase.isOver : Phase → Bool
  | .returned _ => true
  | _ => false

/-- In `listener_shutdown`, or returned from it with an error. -/
def Phase.isLate : Phase → Bool
  | .closing | .joining | .returned (.error _) => true
  | _ => false

structure Operation where
  request : Request
  phase : Phase

/-- The client with one presence listener and the calls that users make on it. A call is known by its
number. -/
structure Users where
  client : Client
  /-- The calls whose senders are in the queue of the listener. -/
  listRx : List Nat
  /-- The lists that were sent to calls. -/
  answered : List (Nat × List Presence)
  /-- `shutdown_tx` was not taken yet. -/
  shutdownTx : Bool
  /-- `shutdown_rx` is ready. -/
  shutdownRx : Bool
  /-- The join handle of the task was not taken yet. -/
  joinHandle : Bool
  /-- `Presences` was dropped. -/
  dropped : Bool
  operations : List Operation
  /-- The positions of the receivers of `syncs`. -/
  syncs : List Nat

namespace Users

/-- `Channel::presences` -/
def spawn (system : System) (channel : JoinReference) : Users where
  client := .spawn system channel
  listRx := []
  answered := []
  shutdownTx := true
  shutdownRx := false
  joinHandle := true
  dropped := false
  operations := []
  syncs := []

/-- `mpsc::channel(10)` -/
def listCapacity : Nat := 10

/-- The map of the listener. -/
def presenceByKey (u : Users) : PresenceByKey := u.client.presences.presenceByKey

def isEnded (u : Users) : Bool :=
  match u.client.presences.task with
  | .ended => true
  | _ => false

/-- `sync_tx`, a `broadcast::channel(10)`. -/
def syncTx (u : Users) : BroadcastQueue Unit where
  capacity := BroadcastQueue.roundedCapacity 10
  sent := u.client.presences.events.filterMap Event.sync?

/-! ## The listener -/

/-- A step of the client. The listener answers the call at the head of its queue, and drops its queue
when it ends. -/
def clientStep (strategy : Option (Nat → Duration)) (u : Users) (label : Client.Label) :
    Option Users :=
  match label with
  | .list =>
      match u.listRx with
      | i :: rest =>
          (u.client.step strategy .list).map fun client => { u with
            client
            listRx := rest
            answered := u.answered ++ [(i, Dict.values u.presenceByKey)] }
      | [] => none
  | .shutdown =>
      if u.shutdownRx then
        (u.client.step strategy .shutdown).map fun client => { u with client, listRx := [] }
      else none
  | label => (u.client.step strategy label).map fun client => { u with client }

/-! ## The calls -/

def setPhase (u : Users) (i : Nat) (op : Operation) (phase : Phase) : Users :=
  { u with operations := u.operations.set i { op with phase } }

/-- The next step of a call. -/
def advance (u : Users) (i : Nat) : Option Users :=
  match u.operations[i]? with
  | some op =>
      match op.phase with
      | .sending =>
          match op.request with
          | .list =>
              if u.isEnded then some (u.setPhase i op .closing)
              else if u.listRx.length < listCapacity then
                some ({ u with listRx := u.listRx ++ [i] }.setPhase i op .waiting)
              else none
          | .shutdown =>
              -- `shutdown_tx.take()`
              some ({ u with
                shutdownTx := false
                shutdownRx := u.shutdownRx || u.shutdownTx }.setPhase i op .closing)
      | .waiting =>
          match u.answered.find? (fun answer => answer.1 = i) with
          | some (_, presences) => some (u.setPhase i op (.returned (.ok (some presences))))
          | none => if i ∈ u.listRx then none else some (u.setPhase i op .closing)
      | .closing =>
          if u.joinHandle then some ({ u with joinHandle := false }.setPhase i op .joining)
          else some (u.setPhase i op (.returned (.error .alreadyJoined)))
      | .joining =>
          if u.isEnded then
            match op.request with
            | .list => some (u.setPhase i op (.returned (.ok (some []))))
            | .shutdown => some (u.setPhase i op (.returned (.ok none)))
          else none
      | .returned _ => none
  | none => none

def begin (u : Users) (request : Request) : Option Users :=
  if u.dropped then none
  else some { u with operations := u.operations ++ [⟨request, .sending⟩] }

/-- `syncs` -/
def subscribe (u : Users) : Option Users :=
  if u.dropped then none else some { u with syncs := u.syncs ++ [u.syncTx.subscribe] }

/-- One `recv` of the receiver number `j` in `PresencesSyncs::sync`, which goes on when it lags. -/
def sync (u : Users) (j : Nat) : Option Users :=
  match u.syncs[j]? with
  | some next =>
      match u.syncTx.recv next with
      | (.empty, _) => none
      | (_, next) => some { u with syncs := u.syncs.set j next }
  | none => none

/-- `Presences` is dropped, when no call on it is running. -/
def drop (u : Users) : Option Users :=
  if u.operations.all (fun op => op.phase.isOver) then
    some { u with shutdownTx := false, shutdownRx := true, dropped := true }
  else none

/-! ## All steps -/

inductive Label
  | client (label : Client.Label)
  | begin (request : Request)
  | advance (operation : Nat)
  | subscribe
  | sync (receiver : Nat)
  | drop

def step (strategy : Option (Nat → Duration)) (u : Users) : Label → Option Users
  | .client label => u.clientStep strategy label
  | .begin request => u.begin request
  | .advance i => u.advance i
  | .subscribe => u.subscribe
  | .sync j => u.sync j
  | .drop => u.drop

def machine (strategy : Option (Nat → Duration)) : Machine Users Label where
  step := step strategy

end Users

end PhoenixChannels.Presences
