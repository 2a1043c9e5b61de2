import PhoenixChannels.Lib.KeyedFold
import PhoenixChannels.Message

/-!
# Presences

`rust/presence.rs`, the events of `rust/presences.rs`, and the payloads that
`rust/presences/listener.rs` reads with `serde_json`. The texts of its errors are only logged.
-/

namespace PhoenixChannels.Presences

/-! ## Presences and their metas -/

structure Meta where
  /-- `phx_ref` -/
  joinReference : String
  others : Dict String Value

structure Presence where
  metas : List Meta

namespace Presence

def joinReferences (presence : Presence) : List String := presence.metas.map Meta.joinReference

/-- The presence with only those metas whose reference is not in the list. -/
def without (presence : Presence) (joinReferences : List String) : Presence where
  metas := presence.metas.filter (fun m => m.joinReference ∉ joinReferences)

end Presence

/-- `HashMap<String, Presence>` -/
abbrev PresenceByKey := Dict String Presence

structure Diff where
  joins : PresenceByKey
  leaves : PresenceByKey

/-! ## Events -/

structure Join where
  key : String
  current : Option Presence
  joined : Presence

structure Leave where
  key : String
  current : Presence
  left : Presence

/-- What is sent into `join_tx`, `leave_tx` and `sync_tx`, in the order of sending. -/
inductive Event
  | join (join : Join)
  | leave (leave : Leave)
  | sync

def Event.key? : Event → Option String
  | join j => some j.key
  | leave l => some l.key
  | sync => none

/-! ## Reading payloads -/

inductive TryFromPayloadError
  | binary
  | json
deriving DecidableEq, Repr

/-- The value of a field, as `derive(Deserialize)` looks for it; other fields are skipped. -/
def field (name : String) (entries : List (String × Value)) : Option Value :=
  (Value.removeKey name entries).1

/-- The entries of a `HashMap` that is read from an object. -/
def readEntries {β : Type} (read : Value → Option β) :
    List (String × Value) → Option (Dict String β)
  | [] => some ∅
  | (key, value) :: rest => do
      let read' ← read value
      let map ← readEntries read rest
      -- a key that comes again would replace the value
      if key ∈ map then return map else return map.insert key read'

def readMap {β : Type} (read : Value → Option β) : Value → Option (Dict String β)
  | .object entries => readEntries read entries
  | _ => none

/-- `Meta` is flattened, so that it is read from an object only. -/
def Meta.ofValue : Value → Option Meta
  | .object entries =>
      match Value.removeKey "phx_ref" entries with
      | (some (.string joinReference), rest) =>
          (readEntries some rest).map (fun others => { joinReference, others })
      | _ => none
  | _ => none

def readMetas : Value → Option (List Meta)
  | .array items => items.mapM Meta.ofValue
  | _ => none

/-- A struct is read from an object with its fields or from an array with their values. -/
def Presence.ofValue : Value → Option Presence
  | .object entries => (field "metas" entries).bind readMetas |>.map Presence.mk
  | .array [metas] => (readMetas metas).map Presence.mk
  | _ => none

def PresenceByKey.ofValue : Value → Option PresenceByKey := readMap Presence.ofValue

def Diff.ofValue : Value → Option Diff
  | .object entries => do
      let joins ← (field "joins" entries).bind PresenceByKey.ofValue
      let leaves ← (field "leaves" entries).bind PresenceByKey.ofValue
      return { joins, leaves }
  | .array [joins, leaves] => do
      return { joins := ← PresenceByKey.ofValue joins, leaves := ← PresenceByKey.ofValue leaves }
  | _ => none

/-- `TryFrom<Payload>` -/
def ofPayload {α : Type} (read : Value → Option α) : Payload → Except TryFromPayloadError α
  | .value value => ((read value).map .ok).getD (.error .json)
  | .binary _ => .error .binary

/-- `TryFrom<Payload> for PresenceByKey` -/
def PresenceByKey.ofPayload : Payload → Except TryFromPayloadError PresenceByKey :=
  Presences.ofPayload PresenceByKey.ofValue

/-- `TryFrom<Payload> for Diff` -/
def Diff.ofPayload : Payload → Except TryFromPayloadError Diff :=
  Presences.ofPayload Diff.ofValue

end PhoenixChannels.Presences
