import PhoenixChannels.Json.Lemmas.Conversions
import PhoenixChannels.Socket.World

/-!
# Inputs of users

A payload of a user is converted in the task of the caller, and the message with it is encoded in
the task of the socket listener, with an `unwrap` in each: when they panic.
-/

namespace PhoenixChannels

/-! ## The conversion -/

namespace Ffi

/-- A float that is infinite or not a number is found at any depth. -/
def Payload.converts : Payload → Bool
  | .jsonPayload json => json.isFinite
  | .binary _ => true

theorem Payload.into_isSome (payload : Payload) : payload.into.isSome = payload.converts := by
  cases payload with
  | jsonPayload json => simp [Payload.into, Payload.converts, JSON.toValue_isSome]
  | binary bytes => rfl

end Ffi

/-! ## The encoding -/

/-- `encode().unwrap()` does not panic. -/
def Message.Encodes (m : Message) : Prop := ∃ data, m.encode = some (.ok data)

theorem sizeByte_isOk (bytes : List UInt8) :
    (sizeByte bytes).isOk = decide (bytes.length < 256) := by
  unfold sizeByte
  split <;> simp_all [Except.isOk, Except.toBool]

/-- Each of the four names is written after its size in one byte. -/
theorem encodeFields_isOk (joinRef reference topic event payload : List UInt8) :
    (encodeFields joinRef reference topic event payload).isOk =
      (decide (joinRef.length < 256) && decide (reference.length < 256)
        && decide (topic.length < 256) && decide (event.length < 256)) := by
  rw [← sizeByte_isOk, ← sizeByte_isOk, ← sizeByte_isOk, ← sizeByte_isOk, encodeFields]
  cases sizeByte joinRef <;> cases sizeByte reference <;> cases sizeByte topic <;>
    cases sizeByte event <;> rfl

/-- The payload can be written for the event on the topic. -/
def Ffi.Payload.fits (topic : Topic) (event : Event) : Ffi.Payload → Bool
  | .jsonPayload json => json.isFinite
  | .binary _ => topic.name.utf8ByteSize < 256 && event.display.utf8ByteSize < 256

theorem Ffi.Payload.converts_of_fits {topic : Topic} {event : Event} {payload : Ffi.Payload}
    (h : payload.fits topic event = true) : payload.converts = true := by
  cases payload with
  | jsonPayload json => exact h
  | binary bytes => rfl

theorem encodes_value {topic : Topic} {event : Event} {value : Value}
    {joinReference : JoinReference} {reference : Option Reference} :
    (Message.push ⟨topic, ⟨event, .value value⟩, joinReference, reference⟩).Encodes :=
  ⟨_, rfl⟩

theorem encodes_binary {topic : Topic} {event : Event} {bytes : List UInt8} {u v : Uuid} :
    (Message.push ⟨topic, ⟨event, .binary bytes⟩, .new u, some (.new v)⟩).Encodes ↔
      topic.name.utf8ByteSize < 256 ∧ event.display.utf8ByteSize < 256 := by
  have hsizes := encodeFields_isOk (utf8 (Reference.new u).text) (utf8 (Reference.new v).text)
    (utf8 topic.name) (utf8 event.display) bytes
  simp only [utf8_length, Reference.new_size] at hsizes
  have hencode : (Message.push ⟨topic, ⟨event, .binary bytes⟩, .new u, some (.new v)⟩).encode =
      some ((encodeFields (utf8 (Reference.new u).text) (utf8 (Reference.new v).text)
        (utf8 topic.name) (utf8 event.display) bytes).map .binary) := rfl
  unfold Message.Encodes
  rw [hencode]
  cases hfields : encodeFields (utf8 (Reference.new u).text) (utf8 (Reference.new v).text)
      (utf8 topic.name) (utf8 event.display) bytes with
  | error error =>
      rw [hfields] at hsizes
      have hlong : ¬ (topic.name.utf8ByteSize < 256 ∧ event.display.utf8ByteSize < 256) := by
        simpa [Except.isOk, Except.toBool] using hsizes.symm
      exact ⟨fun ⟨data, h⟩ => by simp [Except.map] at h, fun h => absurd h hlong⟩
  | ok data =>
      rw [hfields] at hsizes
      have hshort : topic.name.utf8ByteSize < 256 ∧ event.display.utf8ByteSize < 256 := by
        simpa [Except.isOk, Except.toBool] using hsizes.symm
      exact ⟨fun _ => hshort, fun _ => ⟨_, rfl⟩⟩

/-- A payload of a user that was converted can be written when it fits. -/
theorem encodes_iff_fits {topic : Topic} {event : Event} {payload : Ffi.Payload}
    {converted : Payload} {u v : Uuid} (h : payload.into = some converted) :
    (Message.push ⟨topic, ⟨event, converted⟩, .new u, some (.new v)⟩).Encodes ↔
      payload.fits topic event = true := by
  cases payload with
  | jsonPayload json =>
      obtain ⟨value, hvalue, rfl⟩ := Option.map_eq_some_iff.mp h
      have hfinite : json.isFinite = true := by
        rw [← Ffi.JSON.toValue_isSome, hvalue]
        rfl
      exact ⟨fun _ => hfinite, fun _ => encodes_value⟩
  | binary bytes =>
      cases h
      rw [encodes_binary]
      simp [Ffi.Payload.fits]

/-! ## The handlers -/

namespace Socket

variable {strategy : Option (Nat → Duration)} {now : Instant} {fresh : TxId} {c : Connected}
variable {uuid : Uuid} {sent : Except WebSocketError Unit} {w w' : World}

theorem encoded_isSome {α : Type} {m : Message} {next : Panics α} (h : next.isSome = true) :
    (m.encode.bind fun encoded => (unwrap encoded).bind fun _ => next).isSome = true ↔
      m.Encodes := by
  unfold Message.Encodes
  rcases m.encode with _ | error | data <;> simp [unwrap, h]

theorem startJoin_isSome {join : Join} :
    (startJoin now c join uuid sent).isSome = true ↔ (joinMessage join uuid).Encodes := by
  refine encoded_isSome ?_
  cases sent <;> rfl

theorem leave_isSome {l : Leave} :
    (leave now c l uuid sent).isSome = true ↔ (leaveMessage l uuid).Encodes := by
  simp only [leave, Option.bind_eq_bind]
  refine encoded_isSome ?_
  cases sent <;> rfl

theorem call_isSome {k : Call} :
    (call now c k uuid sent).isSome = true ↔ (callMessage k uuid).Encodes := by
  refine encoded_isSome ?_
  cases sent <;> rfl

theorem cast_isSome {k : Cast} :
    (cast now c k uuid sent).isSome = true ↔ (castMessage k uuid).Encodes := by
  refine encoded_isSome ?_
  cases sent <;> rfl

/-! ## What a user can ask for -/

/-- The creation of a channel, and the four commands, with the values that the API accepts. -/
inductive UserInput
  | channel (topic : Topic) (payload : Option Ffi.Payload)
  | join (topic : Topic) (payload : Option Ffi.Payload)
  | leave (topic : Topic)
  | call (topic : Topic) (event : Event) (payload : Ffi.Payload)
  | cast (topic : Topic) (event : Event) (payload : Ffi.Payload)

/-- What the environment decides about the input: the uuids that are drawn, the outcome of the write,
the deadline of a join, and the oneshot channel or the ticket of the caller. -/
structure Circumstances where
  joinUuid : Uuid
  uuid : Uuid
  sent : Except WebSocketError Unit
  deadline : Instant
  tx : TxId
  delivered : Bool

namespace UserInput

/-- What the listener takes, when the conversion of the payload does not panic. -/
def input (x : Circumstances) : UserInput → Panics Input
  | channel topic payload => do
      return .channelSpawn ⟨topic, ← payload.mapM Ffi.Payload.into, x.tx⟩ x.uuid x.delivered
  | join topic payload => do
      let payload ← payload.mapM Ffi.Payload.into
      return .channelStateCommand
        (.join ⟨topic, .new x.joinUuid, payload.getD .empty, x.deadline, x.tx⟩) x.uuid x.sent
  | leave topic =>
      return .channelStateCommand (.leave ⟨topic, .new x.joinUuid, x.tx, x.tx⟩) x.uuid x.sent
  | call topic event payload => do
      return .channelSendCommand
        (.call ⟨topic, .new x.joinUuid, ⟨event, ← payload.into⟩, x.tx⟩) x.uuid x.sent
  | cast topic event payload => do
      return .channelSendCommand
        (.cast ⟨topic, .new x.joinUuid, ⟨event, ← payload.into⟩, x.tx⟩) x.uuid x.sent

/-- Every float is finite, and what goes with binary data has names of at most 255 bytes. -/
def fits : UserInput → Bool
  | channel _ payload => payload.all Ffi.Payload.converts
  | join topic payload => payload.all (Ffi.Payload.fits topic (.phoenix .join))
  | leave _ => true
  | call topic event payload | cast topic event payload => payload.fits topic event

end UserInput

/-- The conversion of the payload does not panic, and the listener does not in a step in which it
takes what came of it. -/
def Handles (strategy : Option (Nat → Duration)) (w : World) (x : Circumstances) (u : UserInput) :
    Prop :=
  ∃ input, u.input x = some input ∧
    ∀ w', (machine strategy).step w (.select input) = some w' → w'.task ≠ .panicked

/-- The handler of a connected listener that runs on the input of a user. -/
def handler (now : Instant) (c : Connected) : Input → Panics (State × List Effect)
  | .channelSpawn spawn uuid delivered => some (spawnChannel (.connected c) spawn uuid delivered)
  | .channelStateCommand command uuid sent => updateChannelState now c command uuid sent
  | .channelSendCommand command uuid sent => send now c command uuid sent
  | _ => none

theorem outcome_ne_panicked {handled : Panics (State × List Effect)} :
    (World.outcome (Iteration.ofPanics handled)).1 ≠ .panicked ↔ handled.isSome = true := by
  cases handled <;> simp [Iteration.ofPanics, World.outcome]

section Handling

variable {x : Circumstances} {u : UserInput} (htask : w.task = .selecting (.connected c))
  (huuid : x.uuid ∉ w.uuids)

include htask huuid

theorem handles_of_input {input : Input} (hinput : u.input x = some input)
    (hdrawn : input.uuid? = some x.uuid)
    (hselect : select strategy w.now w.fresh (.connected c) input =
      some (Iteration.ofPanics (handler w.now c input))) :
    Handles strategy w x u ↔ (handler w.now c input).isSome = true := by
  have hfresh : w.uuidFresh input = true := by simpa [World.uuidFresh, hdrawn] using huuid
  have hstep : (machine strategy).step w (.select input) =
      some (w.record (.connected c) input (Iteration.ofPanics (handler w.now c input))) := by
    simp [machine, World.step, htask, hfresh, hselect]
  rw [← outcome_ne_panicked]
  constructor
  · rintro ⟨input', hinput', h⟩
    cases hinput.symm.trans hinput'
    exact h _ hstep
  · intro h
    refine ⟨input, hinput, fun w' hw' => ?_⟩
    cases hstep.symm.trans hw'
    exact h

/-- An input with a payload is handled when the payload is converted and its handler goes through. -/
theorem handles_of_payload {payload : Ffi.Payload} {fits : Bool} (command : Payload → Input)
    (hinput : u.input x = payload.into.map command)
    (hdrawn : ∀ converted, (command converted).uuid? = some x.uuid)
    (hselect : ∀ converted, select strategy w.now w.fresh (.connected c) (command converted) =
      some (Iteration.ofPanics (handler w.now c (command converted))))
    (hfits : ∀ converted, payload.into = some converted →
      ((handler w.now c (command converted)).isSome = true ↔ fits = true))
    (hconverts : fits = true → payload.converts = true) :
    Handles strategy w x u ↔ fits = true := by
  cases hinto : payload.into with
  | some converted =>
      rw [← hfits converted hinto]
      exact handles_of_input htask huuid (by rw [hinput, hinto]; rfl) (hdrawn converted)
        (hselect converted)
  | none =>
      have hnot : payload.converts = false := by
        rw [← Ffi.Payload.into_isSome, hinto]
        rfl
      constructor
      · rintro ⟨input, h, _⟩
        rw [hinput, hinto] at h
        cases h
      · intro h
        exact absurd (hconverts h) (by simp [hnot])

/-- Whatever the state of the connection is, the input is handled when it fits. -/
theorem handles_iff : Handles strategy w x u ↔ u.fits = true := by
  cases u with
  | channel topic payload =>
      cases payload with
      | none =>
          rw [handles_of_input htask huuid rfl rfl rfl]
          exact ⟨fun _ => rfl, fun _ => rfl⟩
      | some payload =>
          refine handles_of_payload htask huuid
            (fun converted => .channelSpawn ⟨topic, some converted, x.tx⟩ x.uuid x.delivered) ?_
            (fun _ => rfl) (fun _ => rfl) (fun converted hinto => ?_) id
          · cases hinto : payload.into <;> simp [UserInput.input, hinto]
          · have hconverts : payload.converts = true := by
              rw [← Ffi.Payload.into_isSome, hinto]
              rfl
            exact ⟨fun _ => hconverts, fun _ => rfl⟩
  | join topic payload =>
      cases payload with
      | none =>
          rw [handles_of_input htask huuid rfl rfl rfl]
          exact startJoin_isSome.trans ⟨fun _ => rfl, fun _ => encodes_value⟩
      | some payload =>
          refine handles_of_payload htask huuid (fun converted => .channelStateCommand
              (.join ⟨topic, .new x.joinUuid, converted, x.deadline, x.tx⟩) x.uuid x.sent) ?_
            (fun _ => rfl) (fun _ => rfl)
            (fun converted hinto => startJoin_isSome.trans (encodes_iff_fits hinto))
            Ffi.Payload.converts_of_fits
          cases hinto : payload.into <;> simp [UserInput.input, hinto]
  | leave topic =>
      rw [handles_of_input htask huuid rfl rfl rfl]
      exact leave_isSome.trans ⟨fun _ => rfl, fun _ => encodes_value⟩
  | call topic event payload =>
      refine handles_of_payload htask huuid (fun converted => .channelSendCommand
          (.call ⟨topic, .new x.joinUuid, ⟨event, converted⟩, x.tx⟩) x.uuid x.sent) ?_
        (fun _ => rfl) (fun _ => rfl)
        (fun converted hinto => call_isSome.trans (encodes_iff_fits hinto))
        Ffi.Payload.converts_of_fits
      cases hinto : payload.into <;> simp [UserInput.input, hinto]
  | cast topic event payload =>
      refine handles_of_payload htask huuid (fun converted => .channelSendCommand
          (.cast ⟨topic, .new x.joinUuid, ⟨event, converted⟩, x.tx⟩) x.uuid x.sent) ?_
        (fun _ => rfl) (fun _ => rfl)
        (fun converted hinto => cast_isSome.trans (encodes_iff_fits hinto))
        Ffi.Payload.converts_of_fits
      cases hinto : payload.into <;> simp [UserInput.input, hinto]

end Handling

end Socket

end PhoenixChannels
