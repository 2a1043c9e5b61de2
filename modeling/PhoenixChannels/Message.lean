import PhoenixChannels.Reference

/-!
# Messages of the Phoenix protocol

`rust/message.rs` and the payload types of `ffi/message.rs`: the messages, the encoding of client
frames and the decoding of server frames. A panic is `none` in `Panics`.
-/

namespace PhoenixChannels

/-- The result of code that can panic: `none` is a panic of the running task. -/
abbrev Panics (α : Type) := Option α

/-- `result.unwrap()` -/
def unwrap {ε α : Type} : Except ε α → Panics α
  | .ok a => some a
  | .error _ => none

/-! ## JSON values of `serde_json` -/

/-- An `f64` by its bits. -/
structure F64 where
  bits : UInt64
deriving DecidableEq, Repr

/-- The exponent is not all ones: neither infinite nor not-a-number. -/
def F64.isFinite (f : F64) : Bool := (f.bits >>> 52) &&& 0x7FF != 0x7FF

/-- `serde_json::Number`, which keeps non-negative integers apart from negative ones and holds
no float that is infinite or not a number. -/
inductive SerdeNumber
  | posInt (n : UInt64)
  | negInt (n : Int64) (negative : n < 0)
  | float (f : F64) (finite : f.isFinite = true)
deriving DecidableEq, Repr

/-- `serde_json::Value`; an object is a sorted map, given by its entries in order. -/
inductive Value
  | null
  | bool (b : Bool)
  | number (n : SerdeNumber)
  | string (s : String)
  | array (items : List Value)
  | object (entries : List (String × Value))
deriving Repr, Inhabited

/-- `map.remove(key)` -/
def Value.removeKey (key : String) :
    List (String × Value) → Option Value × List (String × Value)
  | [] => (none, [])
  | (k, v) :: rest =>
      if k = key then (some v, rest)
      else
        let (found, rest') := removeKey key rest
        (found, (k, v) :: rest')

/-- A text by what `serde_json::from_str` reads in it: `some value` for the serialisation of a
value, `none` for a text that is no JSON. -/
abbrev JsonText := Option Value

/-! ## Events and payloads -/

inductive PhoenixEvent
  | join
  | leave
  | close
  | reply
  | error
  | heartbeat
deriving DecidableEq, Repr

namespace PhoenixEvent

def display : PhoenixEvent → String
  | join => "phx_join"
  | leave => "phx_leave"
  | close => "phx_close"
  | reply => "phx_reply"
  | error => "phx_error"
  | heartbeat => "heartbeat"

def fromStr (s : String) : Option PhoenixEvent :=
  if s = "phx_join" then some join
  else if s = "phx_leave" then some leave
  else if s = "phx_close" then some close
  else if s = "phx_error" then some error
  else if s = "phx_reply" then some reply
  else if s = "heartbeat" then some heartbeat
  else none

end PhoenixEvent

inductive Event
  | phoenix (event : PhoenixEvent)
  | user (name : String)
deriving DecidableEq, Repr

namespace Event

/-- `From<String> for Event` -/
def ofString (s : String) : Event :=
  match PhoenixEvent.fromStr s with
  | some e => phoenix e
  | none => user s

def display : Event → String
  | phoenix e => e.display
  | user name => name

end Event

inductive Payload
  | value (value : Value)
  | binary (bytes : List UInt8)
deriving Repr, Inhabited

namespace Payload

def isBinary : Payload → Bool
  | value _ => false
  | binary _ => true

/-- `into_value().unwrap()` and `value().unwrap()` -/
def unwrapValue : Payload → Panics Value
  | value v => some v
  | binary _ => none

/-- `into_binary().unwrap()` -/
def unwrapBinary : Payload → Panics (List UInt8)
  | value _ => none
  | binary bytes => some bytes

/-- `Default for Payload` -/
def empty : Payload := value (.object [])

end Payload

structure EventPayload where
  event : Event
  payload : Payload
deriving Repr

/-! ## Messages -/

structure Control where
  event : Event
  payload : Payload
  reference : Option Reference
deriving Repr

structure Broadcast where
  topic : Topic
  eventPayload : EventPayload
deriving Repr

inductive ReplyStatus
  | ok
  | error
deriving DecidableEq, Repr

/-- `From<&str> for ReplyStatus` -/
def ReplyStatus.ofString (s : String) : ReplyStatus := if s = "ok" then ok else error

structure Reply where
  topic : Topic
  event : Event
  payload : Payload
  joinReference : JoinReference
  reference : Reference
  status : ReplyStatus
deriving Repr

structure Push where
  topic : Topic
  eventPayload : EventPayload
  joinReference : JoinReference
  reference : Option Reference
deriving Repr

inductive Message
  | control (control : Control)
  | broadcast (broadcast : Broadcast)
  | reply (reply : Reply)
  | push (push : Push)
deriving Repr

def Message.payload : Message → Payload
  | control m => m.payload
  | broadcast m => m.eventPayload.payload
  | reply m => m.payload
  | push m => m.eventPayload.payload

/-- `tungstenite::Message`. A close frame is kept by its reason only. -/
inductive SocketMessage
  | text (text : JsonText)
  | binary (bytes : List UInt8)
  | ping (data : List UInt8)
  | pong (data : List UInt8)
  | close (frame : Option String)
  | frame
deriving Repr

/-! ## Encoding -/

inductive MessageEncodingError
  | unableToEncode
deriving DecidableEq, Repr

def utf8 (s : String) : List UInt8 := s.toUTF8.data.toList

theorem utf8_length (s : String) : (utf8 s).length = s.utf8ByteSize := by
  simp [utf8]

/-- `len().try_into()` to a `u8` -/
def sizeByte (bytes : List UInt8) : Except MessageEncodingError UInt8 :=
  if bytes.length < 256 then .ok (UInt8.ofNat bytes.length) else .error .unableToEncode

inductive BinaryMessageType
  | push
  | reply
  | broadcast
deriving DecidableEq, Repr

def BinaryMessageType.toByte : BinaryMessageType → UInt8
  | push => 0
  | reply => 1
  | broadcast => 2

/-- The join reference, reference, topic, event and payload that `encode_binary` writes. -/
def Message.binaryFields :
    Message → Panics (String × String × String × String × List UInt8)
  | control m => do
      return ("", (m.reference.map Reference.text).getD "", "phoenix", m.event.display,
        ← m.payload.unwrapBinary)
  | broadcast m => do
      return ("", "", m.topic.name, m.eventPayload.event.display,
        ← m.eventPayload.payload.unwrapBinary)
  | reply m => do
      return (m.joinReference.reference.text, m.reference.text, m.topic.name, m.event.display,
        ← m.payload.unwrapBinary)
  | push m => do
      return (m.joinReference.reference.text, (m.reference.map Reference.text).getD "",
        m.topic.name, m.eventPayload.event.display, ← m.eventPayload.payload.unwrapBinary)

def encodeFields (joinRef reference topic event : List UInt8) (payload : List UInt8) :
    Except MessageEncodingError (List UInt8) := do
  let joinReferenceSize ← sizeByte joinRef
  let referenceSize ← sizeByte reference
  let topicSize ← sizeByte topic
  let eventSize ← sizeByte event
  return [BinaryMessageType.push.toByte, joinReferenceSize, referenceSize, topicSize, eventSize]
    ++ joinRef ++ reference ++ topic ++ event ++ payload

def Message.encodeBinary (m : Message) : Panics (Except MessageEncodingError (List UInt8)) := do
  let (joinRef, reference, topic, event, payload) ← m.binaryFields
  return encodeFields (utf8 joinRef) (utf8 reference) (utf8 topic) (utf8 event) payload

/-- The five elements of the array that `encode_json` writes. -/
def Message.jsonFields : Message → Panics (List Value)
  | control m => do
      return [.null, (m.reference.map (fun r => Value.string r.text)).getD .null,
        .string "phoenix", .string m.event.display, ← m.payload.unwrapValue]
  | broadcast m => do
      return [.null, .null, .string m.topic.name, .string m.eventPayload.event.display,
        ← m.eventPayload.payload.unwrapValue]
  | reply m => do
      return [.string m.joinReference.reference.text, .string m.reference.text,
        .string m.topic.name, .string m.event.display, ← m.payload.unwrapValue]
  | push m => do
      return [.string m.joinReference.reference.text,
        (m.reference.map (fun r => Value.string r.text)).getD .null,
        .string m.topic.name, .string m.eventPayload.event.display,
        ← m.eventPayload.payload.unwrapValue]

/-- `serde_json::to_string` of a value does not fail. -/
def Message.encodeJson (m : Message) : Panics (Except MessageEncodingError JsonText) := do
  return .ok (some (.array (← m.jsonFields)))

def Message.encode (m : Message) : Panics (Except MessageEncodingError SocketMessage) := do
  if m.payload.isBinary then
    return (← m.encodeBinary).map .binary
  else
    return (← m.encodeJson).map .text

/-! ## Decoding -/

/-- What `MessageDecodingError::Invalid` says it did not expect. -/
inductive Unexpected
  | event (got : Value)
  | topic (got : Value)
  | reference (got : Value)
  | joinReference (got : Value)
  | replyPayload (got : Value)
  | controlEvent (got : Event)
  | serializer (got : Value)
  | messageType (got : UInt8)
deriving Repr

inductive MessageDecodingError
  | unexpectedEof
  | invalidUtf8
  | invalid (unexpected : Unexpected)
  | invalidBinary
  | json
deriving Repr

/-- `fields.pop()` as a reference or a join reference: a string or null. -/
def decodeReference (wrong : Value → Unexpected) :
    Value → Except MessageDecodingError (Option Reference)
  | .null => .ok none
  | .string s => .ok (some ⟨s⟩)
  | other => .error (.invalid (wrong other))

/-- The `status` and the `response` of a JSON reply. -/
def decodeReplyPayload : Value → Except MessageDecodingError (ReplyStatus × Value)
  | .object entries =>
      match Value.removeKey "status" entries with
      | (some (.string s), rest) =>
          match Value.removeKey "response" rest with
          | (some payload, _) => .ok (.ofString s, payload)
          | (none, _) => .error (.invalid (.replyPayload (.object entries)))
      | _ => .error (.invalid (.replyPayload (.object entries)))
  | other => .error (.invalid (.replyPayload other))

/-- The message that the five decoded fields of a JSON frame stand for. -/
def decodeFields (joinReference reference : Option Reference) (topic : Topic) (event : Event)
    (payload : Value) : Except MessageDecodingError Message :=
  match joinReference, reference with
  | none, none => .ok (.broadcast ⟨topic, ⟨event, .value payload⟩⟩)
  | some joinReference, none =>
      .ok (.push ⟨topic, ⟨event, .value payload⟩, ⟨joinReference⟩, none⟩)
  | some joinReference, some reference =>
      if event = .phoenix .reply then do
        let (status, payload) ← decodeReplyPayload payload
        return .reply ⟨topic, event, .value payload, ⟨joinReference⟩, reference, status⟩
      else
        .ok (.push ⟨topic, ⟨event, .value payload⟩, ⟨joinReference⟩, some reference⟩)
  | none, some reference =>
      match event with
      | .phoenix e => .ok (.control ⟨.phoenix e, .value payload, some reference⟩)
      | other => .error (.invalid (.controlEvent other))

def decodeJson (json : JsonText) : Except MessageDecodingError Message :=
  match json with
  | none => .error .json
  | some (.array [joinReference, reference, topic, event, payload]) => do
      -- the source pops the fields from the end, so the event is looked at first
      let event ← match event with
        | .string s => .ok (Event.ofString s)
        | other => .error (.invalid (.event other))
      let topic ← match topic with
        | .string s => .ok (Topic.mk s)
        | other => .error (.invalid (.topic other))
      let reference ← decodeReference .reference reference
      let joinReference ← decodeReference .joinReference joinReference
      decodeFields joinReference reference topic event payload
  | some other => .error (.invalid (.serializer other))

def take (bytes : List UInt8) (n : Nat) : Except MessageDecodingError (List UInt8 × List UInt8) :=
  if bytes.length < n then .error .unexpectedEof else .ok (bytes.take n, bytes.drop n)

def takeFirst : List UInt8 → Except MessageDecodingError (Nat × List UInt8)
  | [] => .error .unexpectedEof
  | first :: rest => .ok (first.toNat, rest)

/-- `str::from_utf8(take(&mut bytes, n))` -/
def takeString (bytes : List UInt8) (n : Nat) :
    Except MessageDecodingError (String × List UInt8) := do
  let (taken, rest) ← take bytes n
  match String.fromUTF8? ⟨taken.toArray⟩ with
  | some s => return (s, rest)
  | none => .error .invalidUtf8

def BinaryMessageType.ofByte (byte : Nat) : Except MessageDecodingError BinaryMessageType :=
  match byte with
  | 0 => .ok push
  | 1 => .ok reply
  | 2 => .ok broadcast
  | n => .error (.invalid (.messageType (UInt8.ofNat n)))

def decodeBinary (bytes : List UInt8) : Except MessageDecodingError Message := do
  if bytes.isEmpty then .error .invalidBinary
  else
    let (byte, bytes) ← takeFirst bytes
    match ← BinaryMessageType.ofByte byte with
    | .broadcast =>
        let (topicSize, bytes) ← takeFirst bytes
        let (eventSize, bytes) ← takeFirst bytes
        let (topic, bytes) ← takeString bytes topicSize
        let (event, bytes) ← takeString bytes eventSize
        return .broadcast ⟨⟨topic⟩, ⟨Event.ofString event, .binary bytes⟩⟩
    | .reply =>
        let (joinRefSize, bytes) ← takeFirst bytes
        let (refSize, bytes) ← takeFirst bytes
        let (topicSize, bytes) ← takeFirst bytes
        let (statusSize, bytes) ← takeFirst bytes
        let (joinReference, bytes) ← takeString bytes joinRefSize
        let (reference, bytes) ← takeString bytes refSize
        let (topic, bytes) ← takeString bytes topicSize
        let (status, bytes) ← takeString bytes statusSize
        return .reply ⟨⟨topic⟩, .phoenix .reply, .binary bytes, ⟨⟨joinReference⟩⟩, ⟨reference⟩,
          .ofString status⟩
    | .push =>
        let (joinRefSize, bytes) ← takeFirst bytes
        let (topicSize, bytes) ← takeFirst bytes
        let (eventSize, bytes) ← takeFirst bytes
        let (joinReference, bytes) ← takeString bytes joinRefSize
        let (topic, bytes) ← takeString bytes topicSize
        let (event, bytes) ← takeString bytes eventSize
        return .push ⟨⟨topic⟩, ⟨Event.ofString event, .binary bytes⟩, ⟨⟨joinReference⟩⟩, none⟩

/-- Only called with a text or a binary message; it panics on the others. -/
def Message.decode : SocketMessage → Panics (Except MessageDecodingError Message)
  | .text text => some (decodeJson text)
  | .binary bytes => some (decodeBinary bytes)
  | _ => none

end PhoenixChannels
