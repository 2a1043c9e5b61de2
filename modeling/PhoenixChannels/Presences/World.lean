import PhoenixChannels.Presences.Listener
import PhoenixChannels.System.Step

/-!
# The task of a presence listener

`Presences::spawn` returns before its task is scheduled for the first time. The task subscribes to
the events of its channel when it first runs, and then takes its steps among those of the client.
-/

namespace PhoenixChannels

namespace Presences

inductive Task
  /-- Not scheduled yet. -/
  | spawned
  /-- At the `select!`, with the position of `events`. -/
  | listening (next : Nat)
  | ended

/-- A presence listener. The position `since` is no data of the program: it tells how many events the
channel had sent when `Channel::presences` returned. -/
structure World where
  channel : JoinReference
  since : Nat
  task : Task
  presenceByKey : PresenceByKey
  events : List Event
  /-- The answers to `Presences::list`. -/
  listed : List (List Presence)

/-- The client with one presence listener. -/
structure Client where
  system : System
  presences : World

namespace Client

def eventPayloads (t : Client) : BroadcastQueue EventPayload :=
  t.system.eventPayloads t.presences.channel

/-- `Channel::presences` -/
def spawn (system : System) (channel : JoinReference) : Client where
  system
  presences := {
    channel
    since := (system.eventPayloads channel).subscribe
    task := .spawned
    presenceByKey := ∅
    events := []
    listed := [] }

def setPresences (t : Client) (presences : World) : Client := { t with presences }

def setTask (t : Client) (task : Task) : Client := t.setPresences { t.presences with task }

/-! ## Steps -/

/-- One `events.recv()`. -/
def receive (t : Client) (orders : Orders) : Option Client :=
  match t.presences.task with
  | .listening next =>
      match t.eventPayloads.recv next with
      | (.message eventPayload, next) =>
          let (presenceByKey, events) := received orders t.presences.presenceByKey eventPayload
          some (t.setPresences { t.presences with
            task := .listening next
            presenceByKey
            events := t.presences.events ++ events })
      | (.lagged _, next) => some (t.setTask (.listening next))
      | (.empty, _) => none
  | _ => none

inductive Label
  | system (label : System.Label)
  /-- The task is scheduled for the first time: `event_payload_tx.subscribe()`. -/
  | start
  | receive (orders : Orders)
  | list
  | shutdown

def step (strategy : Option (Nat → Duration)) (t : Client) : Label → Option Client
  | .system label => (System.step strategy t.system label).map (fun s => { t with system := s })
  | .start =>
      match t.presences.task with
      | .spawned => some (t.setTask (.listening t.eventPayloads.subscribe))
      | _ => none
  | .receive orders => t.receive orders
  | .list =>
      match t.presences.task with
      | .listening _ =>
          some (t.setPresences { t.presences with
            listed := t.presences.listed ++ [Dict.values t.presences.presenceByKey] })
      | _ => none
  | .shutdown =>
      match t.presences.task with
      | .listening _ => some (t.setTask .ended)
      | _ => none

def machine (strategy : Option (Nat → Duration)) : Machine Client Label where
  step := step strategy

end Client

end Presences

end PhoenixChannels
