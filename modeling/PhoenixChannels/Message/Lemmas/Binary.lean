import PhoenixChannels.Message.Frames
import PhoenixChannels.Message.Lemmas.Decoding

/-!
# Binary frames

What the steps of `encode_binary` and `decode_binary` write and read.
-/

namespace PhoenixChannels

variable {bytes taken rest : List UInt8} {s : String} {n : Nat} {m : Message}

/-! ## Strings -/

theorem fromUTF8?_eq_some : String.fromUTF8? ⟨bytes.toArray⟩ = some s ↔ utf8 s = bytes := by
  unfold String.fromUTF8?
  constructor
  · intro h
    split at h
    · cases h
      simp [utf8, String.fromUTF8]
    · cases h
  · rintro rfl
    have hbytes : (⟨(utf8 s).toArray⟩ : ByteArray) = s.toByteArray := by simp [utf8]
    rw [dif_pos (hbytes ▸ s.isValidUTF8), Option.some.injEq, ← String.toByteArray_inj]
    exact hbytes

theorem string?_utf8 (s : String) : ClientPush.string? (utf8 s) = some s := fromUTF8?_eq_some.mpr rfl

/-! ## Reading -/

theorem takeFirst_eq_ok : takeFirst bytes = .ok (n, rest) ↔
    ∃ first : UInt8, bytes = first :: rest ∧ first.toNat = n := by
  cases bytes with
  | nil => simp [takeFirst]
  | cons first bytes =>
      simp only [takeFirst, Except.ok.injEq, Prod.mk.injEq, List.cons.injEq]
      constructor
      · rintro ⟨rfl, rfl⟩
        exact ⟨first, ⟨rfl, rfl⟩, rfl⟩
      · rintro ⟨_, ⟨rfl, rfl⟩, rfl⟩
        exact ⟨rfl, rfl⟩

theorem take_eq_ok : take bytes n = .ok (taken, rest) ↔ bytes = taken ++ rest ∧ taken.length = n := by
  unfold take
  constructor
  · intro h
    split at h <;> cases h
    refine ⟨(List.take_append_drop n bytes).symm, ?_⟩
    rw [List.length_take]
    omega
  · rintro ⟨rfl, rfl⟩
    rw [if_neg (by simp), List.take_left, List.drop_left]

theorem takeString_eq_ok : takeString bytes n = .ok (s, rest) ↔
    bytes = utf8 s ++ rest ∧ (utf8 s).length = n := by
  unfold takeString
  rw [bind_eq_ok]
  constructor
  · rintro ⟨⟨taken, rest'⟩, htake, h⟩
    cases hs : String.fromUTF8? ⟨taken.toArray⟩ with
    | some s' =>
        simp only [hs] at h
        cases h
        obtain rfl := fromUTF8?_eq_some.mp hs
        exact take_eq_ok.mp htake
    | none =>
        simp only [hs] at h
        cases h
  · rintro h
    refine ⟨(utf8 s, rest), take_eq_ok.mpr h, ?_⟩
    have hs : String.fromUTF8? ⟨(utf8 s).toArray⟩ = some s := fromUTF8?_eq_some.mpr rfl
    simp only [hs]
    rfl

theorem ofByte_eq_ok {type : BinaryMessageType} :
    BinaryMessageType.ofByte n = .ok type ↔ n = type.toByte.toNat := by
  constructor
  · intro h
    unfold BinaryMessageType.ofByte at h
    split at h <;> cases h <;> rfl
  · rintro rfl
    cases type <;> rfl

/-! ## The frames of the server -/

theorem encode_eq_some {frame : ServerFrame} : frame.encode = some bytes ↔
    LengthPrefixed.Fits frame.fields ∧
      frame.type :: LengthPrefixed.frame frame.fields frame.payload = bytes := by
  simp [ServerFrame.encode]

theorem size_eq {first : UInt8} (h : first.toNat = n) : n < 256 ∧ UInt8.ofNat n = first := by
  subst h
  exact ⟨first.toNat_lt, UInt8.ofNat_toNat⟩

theorem toByte_eq {first : UInt8} {type : BinaryMessageType}
    (h : first.toNat = type.toByte.toNat) : first = type.toByte := UInt8.toNat_inj.mp h

theorem frame_of_decodeBinary (h : decodeBinary bytes = .ok m) :
    ∃ frame : ServerFrame, frame.encode = some bytes ∧ frame.message = m := by
  unfold decodeBinary at h
  split at h
  · cases h
  simp only [bind_eq_ok, Prod.exists, takeFirst_eq_ok, ofByte_eq_ok] at h
  obtain ⟨_, _, ⟨first, rfl, rfl⟩, type, htype, h⟩ := h
  obtain rfl := toByte_eq htype
  cases type with
  | push =>
      simp only [bind_eq_ok, Prod.exists, takeFirst_eq_ok, takeString_eq_ok] at h
      obtain ⟨_, _, ⟨first₁, rfl, h₁⟩, _, _, ⟨first₂, rfl, h₂⟩, _, _, ⟨first₃, rfl, h₃⟩,
        joinReference, _, ⟨rfl, rfl⟩, topic, _, ⟨rfl, rfl⟩, event, payload, ⟨rfl, rfl⟩, hm⟩ := h
      cases hm
      obtain ⟨hlt₁, rfl⟩ := size_eq h₁
      obtain ⟨hlt₂, rfl⟩ := size_eq h₂
      obtain ⟨hlt₃, rfl⟩ := size_eq h₃
      refine ⟨.push joinReference topic event payload, encode_eq_some.mpr ⟨?_, ?_⟩, rfl⟩
      · simp [ServerFrame.fields, hlt₁, hlt₂, hlt₃]
      · simp [ServerFrame.fields, ServerFrame.type, ServerFrame.payload, LengthPrefixed.frame,
          BinaryMessageType.toByte]
  | reply =>
      simp only [bind_eq_ok, Prod.exists, takeFirst_eq_ok, takeString_eq_ok] at h
      obtain ⟨_, _, ⟨first₁, rfl, h₁⟩, _, _, ⟨first₂, rfl, h₂⟩, _, _, ⟨first₃, rfl, h₃⟩,
        _, _, ⟨first₄, rfl, h₄⟩, joinReference, _, ⟨rfl, rfl⟩, reference, _, ⟨rfl, rfl⟩,
        topic, _, ⟨rfl, rfl⟩, status, payload, ⟨rfl, rfl⟩, hm⟩ := h
      cases hm
      obtain ⟨hlt₁, rfl⟩ := size_eq h₁
      obtain ⟨hlt₂, rfl⟩ := size_eq h₂
      obtain ⟨hlt₃, rfl⟩ := size_eq h₃
      obtain ⟨hlt₄, rfl⟩ := size_eq h₄
      refine ⟨.reply joinReference reference topic status payload,
        encode_eq_some.mpr ⟨?_, ?_⟩, rfl⟩
      · simp [ServerFrame.fields, hlt₁, hlt₂, hlt₃, hlt₄]
      · simp [ServerFrame.fields, ServerFrame.type, ServerFrame.payload, LengthPrefixed.frame,
          BinaryMessageType.toByte]
  | broadcast =>
      simp only [bind_eq_ok, Prod.exists, takeFirst_eq_ok, takeString_eq_ok] at h
      obtain ⟨_, _, ⟨first₁, rfl, h₁⟩, _, _, ⟨first₂, rfl, h₂⟩,
        topic, _, ⟨rfl, rfl⟩, event, payload, ⟨rfl, rfl⟩, hm⟩ := h
      cases hm
      obtain ⟨hlt₁, rfl⟩ := size_eq h₁
      obtain ⟨hlt₂, rfl⟩ := size_eq h₂
      refine ⟨.broadcast topic event payload, encode_eq_some.mpr ⟨?_, ?_⟩, rfl⟩
      · simp [ServerFrame.fields, hlt₁, hlt₂]
      · simp [ServerFrame.fields, ServerFrame.type, ServerFrame.payload, LengthPrefixed.frame,
          BinaryMessageType.toByte]

theorem takeFirst_size (h : n < 256) : takeFirst (UInt8.ofNat n :: rest) = .ok (n, rest) :=
  takeFirst_eq_ok.mpr ⟨_, rfl, LengthPrefixed.toNat_size h⟩

theorem takeString_append : takeString (utf8 s ++ rest) (utf8 s).length = .ok (s, rest) :=
  takeString_eq_ok.mpr ⟨rfl, rfl⟩

theorem frame_cons {fields : List (List UInt8)} : LengthPrefixed.frame fields rest =
    fields.map (fun field => UInt8.ofNat field.length) ++ (fields.flatten ++ rest) :=
  List.append_assoc ..

theorem decodeBinary_of_encode {frame : ServerFrame} (h : frame.encode = some bytes) :
    decodeBinary bytes = .ok frame.message := by
  obtain ⟨hfits, rfl⟩ := encode_eq_some.mp h
  rw [decodeBinary, if_neg (by simp), frame_cons]
  cases frame with
  | push joinReference topic event payload =>
      simp only [ServerFrame.fields, LengthPrefixed.fits_cons] at hfits
      obtain ⟨h₁, h₂, h₃, _⟩ := hfits
      have htype : ∀ rest, takeFirst (0 :: rest) = .ok (0, rest) := fun _ => rfl
      simp only [ServerFrame.fields, ServerFrame.payload, ServerFrame.type, List.map_cons,
        List.map_nil, List.flatten_cons, List.flatten_nil, List.cons_append, List.nil_append,
        List.append_assoc, htype, ok_bind, takeFirst_size h₁, takeFirst_size h₂,
        takeFirst_size h₃, takeString_append, BinaryMessageType.ofByte]
      rfl
  | reply joinReference reference topic status payload =>
      simp only [ServerFrame.fields, LengthPrefixed.fits_cons] at hfits
      obtain ⟨h₁, h₂, h₃, h₄, _⟩ := hfits
      have htype : ∀ rest, takeFirst (1 :: rest) = .ok (1, rest) := fun _ => rfl
      simp only [ServerFrame.fields, ServerFrame.payload, ServerFrame.type, List.map_cons,
        List.map_nil, List.flatten_cons, List.flatten_nil, List.cons_append, List.nil_append,
        List.append_assoc, htype, ok_bind, takeFirst_size h₁, takeFirst_size h₂,
        takeFirst_size h₃, takeFirst_size h₄, takeString_append, BinaryMessageType.ofByte]
      rfl
  | broadcast topic event payload =>
      simp only [ServerFrame.fields, LengthPrefixed.fits_cons] at hfits
      obtain ⟨h₁, h₂, _⟩ := hfits
      have htype : ∀ rest, takeFirst (2 :: rest) = .ok (2, rest) := fun _ => rfl
      simp only [ServerFrame.fields, ServerFrame.payload, ServerFrame.type, List.map_cons,
        List.map_nil, List.flatten_cons, List.flatten_nil, List.cons_append, List.nil_append,
        List.append_assoc, htype, ok_bind, takeFirst_size h₁, takeFirst_size h₂,
        takeString_append, BinaryMessageType.ofByte]
      rfl

/-! ## The frames of the client -/

theorem sizeByte_eq_ok {size : UInt8} :
    sizeByte bytes = .ok size ↔ bytes.length < 256 ∧ UInt8.ofNat bytes.length = size := by
  unfold sizeByte
  split <;> simp [*]

theorem encodeFields_eq_ok {joinRef reference topic event payload : List UInt8} :
    encodeFields joinRef reference topic event payload = .ok bytes ↔
      LengthPrefixed.Fits [joinRef, reference, topic, event] ∧
        0 :: LengthPrefixed.frame [joinRef, reference, topic, event] payload = bytes := by
  unfold encodeFields
  simp only [bind_eq_ok, sizeByte_eq_ok, LengthPrefixed.fits_cons, LengthPrefixed.fits_nil, and_true]
  constructor
  · rintro ⟨_, ⟨h₁, rfl⟩, _, ⟨h₂, rfl⟩, _, ⟨h₃, rfl⟩, _, ⟨h₄, rfl⟩, h⟩
    cases h
    exact ⟨⟨h₁, h₂, h₃, h₄⟩, by simp [LengthPrefixed.frame, BinaryMessageType.toByte]⟩
  · rintro ⟨⟨h₁, h₂, h₃, h₄⟩, rfl⟩
    refine ⟨_, ⟨h₁, rfl⟩, _, ⟨h₂, rfl⟩, _, ⟨h₃, rfl⟩, _, ⟨h₄, rfl⟩, ?_⟩
    simp [LengthPrefixed.frame, BinaryMessageType.toByte, pure, Except.pure]

theorem fits_fields {push : ClientPush} :
    LengthPrefixed.Fits push.fields ↔ ∀ s ∈ push.strings, s.utf8ByteSize ≤ 255 := by
  simp [LengthPrefixed.Fits, ClientPush.fields, utf8_length, Nat.lt_succ_iff]

/-- What `encode_binary` writes of a message are the fields of its push. -/
theorem encodeBinary_eq_ok {payload : List UInt8} (h : m.payload = .binary payload) :
    ∃ result, m.encodeBinary = some result ∧ ∀ bytes, result = .ok bytes ↔
      LengthPrefixed.Fits (m.clientPush payload).fields ∧
        0 :: LengthPrefixed.frame (m.clientPush payload).fields payload = bytes := by
  refine ⟨encodeFields (utf8 (m.clientPush payload).joinReference)
    (utf8 (m.clientPush payload).reference) (utf8 (m.clientPush payload).topic)
    (utf8 (m.clientPush payload).event) payload, ?_, fun bytes => encodeFields_eq_ok⟩
  cases m with
  | control m | broadcast m | reply m | push m =>
      simp only [Message.payload] at h
      simp only [Message.encodeBinary, Message.binaryFields, h, Payload.unwrapBinary]
      rfl

theorem parse_frame {push : ClientPush} (h : LengthPrefixed.Fits push.fields) :
    ClientPush.parse (0 :: LengthPrefixed.frame push.fields push.payload) = some push := by
  have hread : LengthPrefixed.read 4 (LengthPrefixed.frame push.fields push.payload) =
      some (push.fields, push.payload) := LengthPrefixed.read_frame h
  simp only [ClientPush.parse, hread]
  simp [ClientPush.fields, ClientPush.strings, string?_utf8]

end PhoenixChannels
