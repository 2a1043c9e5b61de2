import PhoenixChannels.Presences.State

/-!
# The handlers of a presence listener

`rust/presences/listener.rs`, function by function, with the events that are sent. Each hash map
that is looped over has an order of its own.
-/

namespace PhoenixChannels.Presences

abbrev MapOrder := HashOrder (Sigma fun _ : String => Presence)

/-- The orders of the maps that one payload makes the listener loop over. -/
structure Orders where
  new : MapOrder
  joined : MapOrder
  left : MapOrder

/-- The map of the listener with the events it has sent. -/
abbrev Synced := PresenceByKey × List Event

namespace PresenceByKey

/-! ## `sync_diff` -/

/-- `merged_presence` -/
def merge (joinedPresence : Presence) (currentPresence : Option Presence) : Presence :=
  match currentPresence with
  | some current =>
      { metas := joinedPresence.metas ++ (current.without joinedPresence.joinReferences).metas }
  | none => joinedPresence

/-- One round of the loop over the joined presences. -/
def joinKey (synced : Synced) (key : String) (joinedPresence : Presence) : Synced :=
  let current := synced.1.lookup key
  let merged := merge joinedPresence current
  (synced.1.insert key merged, synced.2 ++ [.join { key, current, joined := merged }])

/-- One round of the loop over the left presences. -/
def leaveKey (synced : Synced) (key : String) (leftPresence : Presence) : Synced :=
  match synced.1.lookup key with
  | some current =>
      let current := current.without leftPresence.joinReferences
      (if current.metas.isEmpty then synced.1.erase key else synced.1.insert key current,
        synced.2 ++ [.leave { key, current, left := leftPresence }])
  | none => synced

def syncDiff (orders : Orders) (self joined left : PresenceByKey) : Synced :=
  left.fold orders.left leaveKey (joined.fold orders.joined joinKey (self, []))

/-! ## `sync` -/

/-- One round of the loop over the new presences, with the joined and the left ones so far. -/
def diffKey (self : PresenceByKey) (diff : Diff) (newKey : String) (newPresence : Presence) : Diff :=
  match self.lookup newKey with
  | some currentPresence =>
      let joined := newPresence.without currentPresence.joinReferences
      let left := currentPresence.without newPresence.joinReferences
      { joins := if joined.metas.isEmpty then diff.joins else diff.joins.insert newKey joined
        leaves := if left.metas.isEmpty then diff.leaves else diff.leaves.insert newKey left }
  | none => { diff with joins := diff.joins.insert newKey newPresence }

def sync (orders : Orders) (self new : PresenceByKey) : Synced :=
  let leftPresenceByKey := self.filterKeys (fun key => key ∉ new)
  let self := self.filterKeys (fun key => key ∈ new)
  let diff := new.fold orders.new (diffKey self) { joins := ∅, leaves := leftPresenceByKey }
  syncDiff orders self diff.joins diff.leaves

end PresenceByKey

/-! ## Payloads -/

def presenceState (orders : Orders) (presenceByKey : PresenceByKey) (newState : Payload) : Synced :=
  match PresenceByKey.ofPayload newState with
  | .ok new =>
      let (presenceByKey, events) := presenceByKey.sync orders new
      (presenceByKey, events ++ [.sync])
  | .error _ => (presenceByKey, [])

def presenceDiff (orders : Orders) (presenceByKey : PresenceByKey) (diffPayload : Payload) :
    Synced :=
  match Diff.ofPayload diffPayload with
  | .ok diff =>
      let (presenceByKey, events) := presenceByKey.syncDiff orders diff.joins diff.leaves
      (presenceByKey, events ++ [.sync])
  | .error _ => (presenceByKey, [])

/-- The branch of the `select!` that takes the events of the channel. -/
def received (orders : Orders) (presenceByKey : PresenceByKey) (eventPayload : EventPayload) :
    Synced :=
  match eventPayload.event with
  | .user "presence_state" => presenceState orders presenceByKey eventPayload.payload
  | .user "presence_diff" => presenceDiff orders presenceByKey eventPayload.payload
  | _ => (presenceByKey, [])

end PhoenixChannels.Presences
