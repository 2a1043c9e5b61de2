import PhoenixChannels.Message.Lemmas.Binary
import PhoenixChannels.Message.Lemmas.Json
import PhoenixChannels.Socket.Lemmas.Routes

/-!
# Theorems on frames

What the server reads in the frames of the client, what the client reads in the frames of the
server, and which of its own frames it would read back.
-/

namespace PhoenixChannels

/-! ## JSON frames -/

/-- A message with a JSON payload is always encoded, and comes back exactly if its variant and its
event are read back. -/
theorem json_roundTrip_iff {m : Message} (h : m.payload.isBinary = false) :
    ∃ text, m.encodeJson = some (.ok text) ∧
      (decodeJson text = .ok m ↔ m.event.Canonical ∧ m.JsonVariant) := by
  cases hpayload : m.payload with
  | value value =>
      obtain ⟨text, hencode, hdecode⟩ := decode_encodeJson hpayload
      refine ⟨text, hencode, ?_⟩
      rw [hdecode]
      exact decodeFields_iff hpayload
  | binary bytes =>
      rw [hpayload] at h
      cases h

/-- A broadcast of a user event on the topic of a room. -/
def roomMessage (payload : Payload) : Message :=
  .broadcast ⟨⟨"room:lobby"⟩, ⟨.user "message", payload⟩⟩

theorem json_roundTrip_broadcast :
    ∃ text, (roomMessage .empty).encodeJson = some (.ok text) ∧
      decodeJson text = .ok (roomMessage .empty) := by
  obtain ⟨text, hencode, hdecode⟩ := json_roundTrip_iff (m := roomMessage .empty) rfl
  exact ⟨text, hencode, hdecode.mpr ⟨by simp [Message.event, roomMessage, Event.Canonical]; decide,
    trivial⟩⟩

/-! ## Binary frames -/

/-- A message with a binary payload is encoded exactly if none of its four strings has more than 255
bytes, and then the server reads the strings and the payload in the frame. -/
theorem encodeBinary_faithful {m : Message} {payload : List UInt8}
    (h : m.payload = .binary payload) :
    ∃ result, m.encodeBinary = some result ∧
      ((∃ bytes, result = .ok bytes) ↔
        ∀ s ∈ (m.clientPush payload).strings, s.utf8ByteSize ≤ 255) ∧
      ∀ bytes, result = .ok bytes → ClientPush.parse bytes = some (m.clientPush payload) ∧
        ∀ (m' : Message) payload', m'.payload = .binary payload' → m'.encodeBinary = some (.ok bytes) →
          m'.clientPush payload' = m.clientPush payload := by
  have hparse : ∀ {m : Message} {payload bytes : List UInt8},
      LengthPrefixed.Fits (m.clientPush payload).fields ∧
        0 :: LengthPrefixed.frame (m.clientPush payload).fields payload = bytes →
      ClientPush.parse bytes = some (m.clientPush payload) := by
    rintro m payload bytes ⟨hfits, rfl⟩
    exact parse_frame hfits
  obtain ⟨result, hencode, hresult⟩ := encodeBinary_eq_ok h
  refine ⟨result, hencode, ?_, ?_⟩
  · rw [← fits_fields]
    constructor
    · rintro ⟨bytes, hok⟩
      exact ((hresult bytes).mp hok).1
    · exact fun hfits => ⟨_, (hresult _).mpr ⟨hfits, rfl⟩⟩
  · intro bytes hok
    have hread := hparse ((hresult bytes).mp hok)
    refine ⟨hread, fun m' payload' h' hencode' => ?_⟩
    obtain ⟨result', hencode'', hresult'⟩ := encodeBinary_eq_ok h'
    cases hencode''.symm.trans hencode'
    have hread' := hparse ((hresult' bytes).mp rfl)
    exact Option.some.inj (hread'.symm.trans hread)

theorem encodeBinary_faithful_empty :
    ∃ bytes, (roomMessage (.binary [])).encodeBinary = some (.ok bytes) ∧
      ClientPush.parse bytes = some ⟨"", "", "room:lobby", "message", []⟩ := by
  obtain ⟨result, hencode, hsizes, hread⟩ :=
    encodeBinary_faithful (m := roomMessage (.binary [])) rfl
  obtain ⟨bytes, rfl⟩ := hsizes.mpr (by decide)
  exact ⟨bytes, hencode, (hread bytes rfl).1⟩

theorem event_message {frame : ServerFrame} {event : String} (h : frame.event? = some event) :
    frame.message.event.display = event := by
  cases frame <;> cases h <;> exact display_ofString _

/-- The binary decoder accepts exactly the frames of the server, and gives their fields; the event is
the one that is shown as the string of the frame. -/
theorem decodeBinary_eq_ok_iff (bytes : List UInt8) :
    (∀ m, decodeBinary bytes = .ok m ↔
      ∃ frame : ServerFrame, frame.encode = some bytes ∧ frame.message = m ∧
        ∀ event, frame.event? = some event → m.event.display = event) ∧
      ((∃ frame : ServerFrame, frame.encode = some bytes) ∨
        ∃ error, decodeBinary bytes = .error error) := by
  constructor
  · intro m
    constructor
    · intro hdecode
      obtain ⟨frame, hencode, rfl⟩ := frame_of_decodeBinary hdecode
      exact ⟨frame, hencode, rfl, fun _ => event_message⟩
    · rintro ⟨frame, hencode, rfl, _⟩
      exact decodeBinary_of_encode hencode
  · cases hdecode : decodeBinary bytes with
    | ok m =>
        obtain ⟨frame, hencode, _⟩ := frame_of_decodeBinary hdecode
        exact .inl ⟨frame, hencode⟩
    | error error => exact .inr ⟨error, rfl⟩

/-! ## The two decoders -/

theorem decodeJson_json (frame : ServerFrame) (payload : Value) :
    decodeJson (some (frame.json payload)) =
      .ok (frame.message.withPayload (.value payload)) := by
  cases frame with
  | push | broadcast => rfl
  | reply joinReference reference topic status bytes =>
      have hevent : Event.ofString "phx_reply" = .phoenix .reply := by decide
      have hpayload : decodeReplyPayload (.object [("response", payload),
          ("status", .string status)]) = .ok (.ofString status, payload) := by
        simp [decodeReplyPayload, Value.removeKey]
      simp only [ServerFrame.json, decodeJson, ok_bind, hevent, decodeReference, decodeFields,
        hpayload, if_pos]
      rfl

/-- The JSON and the binary form of a frame give messages that differ in nothing but the payload,
and go to the same receivers. -/
theorem decoders_agree {frame : ServerFrame} {bytes : List UInt8} (h : frame.encode = some bytes)
    (payload : Value) :
    ∃ m, decodeBinary bytes = .ok m ∧
      decodeJson (some (frame.json payload)) = .ok (m.withPayload (.value payload)) ∧
      ∀ now c fresh,
        (Socket.handleMessage now c (m.withPayload (.value payload)) fresh).receivers =
            (Socket.handleMessage now c m fresh).receivers ∧
          (Socket.handleMessage now c (m.withPayload (.value payload)) fresh).connection =
            (Socket.handleMessage now c m fresh).connection :=
  ⟨frame.message, decodeBinary_of_encode h, decodeJson_json frame payload,
    fun now c fresh => Socket.handleMessage_withPayload now c frame.message (.value payload) fresh⟩

theorem decoders_agree_reply :
    ∃ m, decodeBinary [1, 1, 1, 0, 2, 55, 56, 111, 107] = .ok m ∧
      decodeJson (some (.array [.string "7", .string "8", .string "", .string "phx_reply",
        .object [("response", .null), ("status", .string "ok")]])) =
          .ok (m.withPayload (.value .null)) := by
  have hencode : (ServerFrame.reply "7" "8" "" "ok" []).encode =
      some [1, 1, 1, 0, 2, 55, 56, 111, 107] := by decide +kernel
  obtain ⟨m, hbinary, hjson, _⟩ := decoders_agree hencode .null
  exact ⟨m, hbinary, hjson⟩

end PhoenixChannels
