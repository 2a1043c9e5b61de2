import PhoenixChannels.Lib.LengthPrefixed
import PhoenixChannels.Message

/-!
# Frames of the Phoenix protocol

The layouts that the server writes and reads, as they are given in the protocol: what a frame is
about, without the code that encodes and decodes it.
-/

namespace PhoenixChannels

/-! ## What a message is addressed with -/

namespace Message

def topic? : Message → Option Topic
  | control _ => none
  | broadcast m => some m.topic
  | reply m => some m.topic
  | push m => some m.topic

def joinReference? : Message → Option JoinReference
  | control _ | broadcast _ => none
  | reply m => some m.joinReference
  | push m => some m.joinReference

def reference? : Message → Option Reference
  | control m => m.reference
  | broadcast _ => none
  | reply m => some m.reference
  | push m => m.reference

def event : Message → Event
  | control m => m.event
  | broadcast m => m.eventPayload.event
  | reply m => m.event
  | push m => m.eventPayload.event

/-- The message with another payload. -/
def withPayload (payload : Payload) : Message → Message
  | control m => control { m with payload }
  | broadcast m => broadcast { m with eventPayload := { m.eventPayload with payload } }
  | reply m => reply { m with payload }
  | push m => push { m with eventPayload := { m.eventPayload with payload } }

end Message

/-! ## Frames of the server -/

/-- A binary frame of the server by its fields. -/
inductive ServerFrame
  | push (joinReference topic event : String) (payload : List UInt8)
  | reply (joinReference reference topic status : String) (payload : List UInt8)
  | broadcast (topic event : String) (payload : List UInt8)

namespace ServerFrame

def type : ServerFrame → UInt8
  | push .. => 0
  | reply .. => 1
  | broadcast .. => 2

def fields : ServerFrame → List (List UInt8)
  | push joinReference topic event _ => [utf8 joinReference, utf8 topic, utf8 event]
  | reply joinReference reference topic status _ =>
      [utf8 joinReference, utf8 reference, utf8 topic, utf8 status]
  | broadcast topic event _ => [utf8 topic, utf8 event]

def payload : ServerFrame → List UInt8
  | push _ _ _ payload | reply _ _ _ _ payload | broadcast _ _ payload => payload

/-- The string of the event; a reply has none. -/
def event? : ServerFrame → Option String
  | push _ _ event _ | broadcast _ event _ => some event
  | reply .. => none

/-- The bytes of a frame; no frame has a field of more than 255 bytes. -/
def encode (frame : ServerFrame) : Option (List UInt8) :=
  if LengthPrefixed.Fits frame.fields then
    some (frame.type :: LengthPrefixed.frame frame.fields frame.payload)
  else none

/-- The message with exactly these fields; the status is `ok` for the string `ok` alone. -/
def message : ServerFrame → Message
  | push joinReference topic event payload =>
      .push ⟨⟨topic⟩, ⟨.ofString event, .binary payload⟩, ⟨⟨joinReference⟩⟩, none⟩
  | reply joinReference reference topic status payload =>
      .reply ⟨⟨topic⟩, .phoenix .reply, .binary payload, ⟨⟨joinReference⟩⟩, ⟨reference⟩,
        if status = "ok" then .ok else .error⟩
  | broadcast topic event payload => .broadcast ⟨⟨topic⟩, ⟨.ofString event, .binary payload⟩⟩

/-- The frame in the JSON format of the server, with the value `payload`. -/
def json (payload : Value) : ServerFrame → Value
  | push joinReference topic event _ =>
      .array [.string joinReference, .null, .string topic, .string event, payload]
  | reply joinReference reference topic status _ =>
      .array [.string joinReference, .string reference, .string topic, .string "phx_reply",
        .object [("response", payload), ("status", .string status)]]
  | broadcast topic event _ => .array [.null, .null, .string topic, .string event, payload]

end ServerFrame

/-! ## Pushes of the client -/

/-- A binary push of a client by what the server reads in it. -/
structure ClientPush where
  joinReference : String
  reference : String
  topic : String
  event : String
  payload : List UInt8
deriving DecidableEq

namespace ClientPush

def strings (push : ClientPush) : List String :=
  [push.joinReference, push.reference, push.topic, push.event]

def fields (push : ClientPush) : List (List UInt8) := push.strings.map utf8

def string? (bytes : List UInt8) : Option String := String.fromUTF8? ⟨bytes.toArray⟩

/-- The server reads the sizes of the four strings, the strings, and the payload up to the end. -/
def parse : List UInt8 → Option ClientPush
  | 0 :: bytes =>
      match LengthPrefixed.read 4 bytes with
      | some ([joinReference, reference, topic, event], payload) => do
          return ⟨← string? joinReference, ← string? reference, ← string? topic, ← string? event,
            payload⟩
      | _ => none
  | _ => none

end ClientPush

/-- What the server should read of a message: an absent reference is empty, and the topic of a
control message is `phoenix`. -/
def Message.clientPush (m : Message) (payload : List UInt8) : ClientPush where
  joinReference := (m.joinReference?.map fun r => r.reference.text).getD ""
  reference := (m.reference?.map Reference.text).getD ""
  topic := (m.topic?.map Topic.name).getD "phoenix"
  event := m.event.display
  payload

end PhoenixChannels
