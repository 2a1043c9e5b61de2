import PhoenixChannels.Message.Frames
import PhoenixChannels.Message.Lemmas.Decoding

/-!
# JSON frames

The variant of a message is not written into a JSON frame: what `decode_json` takes it for depends
on the references that are there, and on the event.
-/

namespace PhoenixChannels

variable {value payload response : Value} {status : ReplyStatus} {key : String}
variable {entries rest : List (String × Value)} {m : Message}

/-! ## What survives -/

/-- An event that is read back: no user event has the name of a Phoenix event. -/
def Event.Canonical : Event → Prop
  | phoenix _ => True
  | user name => PhoenixEvent.fromStr name = none

/-- A variant that is read back. -/
def Message.JsonVariant : Message → Prop
  | control m => m.reference.isSome = true ∧ ∃ e, m.event = .phoenix e
  | broadcast _ => True
  | reply _ => False
  | push m => m.reference = none ∨ m.eventPayload.event ≠ .phoenix .reply

/-! ## Events -/

@[simp] theorem fromStr_display (e : PhoenixEvent) : PhoenixEvent.fromStr e.display = some e := by
  cases e <;> decide

theorem fromStr_eq_some {s : String} {e : PhoenixEvent} (h : PhoenixEvent.fromStr s = some e) :
    e.display = s := by
  unfold PhoenixEvent.fromStr at h
  split_ifs at h with h₁ h₂ h₃ h₄ h₅ h₆ <;> cases h <;> exact Eq.symm ‹_›

/-- The event of a string is shown as that string. -/
theorem display_ofString (s : String) : (Event.ofString s).display = s := by
  unfold Event.ofString
  split
  · exact fromStr_eq_some ‹_›
  · rfl

theorem ofString_display_iff {e : Event} : Event.ofString e.display = e ↔ e.Canonical := by
  cases e with
  | phoenix e => simp [Event.ofString, Event.display, Event.Canonical]
  | user name =>
      simp only [Event.ofString, Event.display, Event.Canonical]
      cases PhoenixEvent.fromStr name <;> simp

/-! ## The payload of a reply -/

theorem removeKey_mem (h : Value.removeKey key entries = (some value, rest)) :
    (key, value) ∈ entries := by
  induction entries generalizing rest with
  | nil => cases h
  | cons entry entries ih =>
      obtain ⟨k, v⟩ := entry
      unfold Value.removeKey at h
      split at h
      · rename_i hk
        cases h
        simp [hk]
      · generalize hfound : Value.removeKey key entries = found at h
        obtain ⟨found, rest'⟩ := found
        cases h
        exact List.mem_cons_of_mem _ (ih hfound)

theorem removeKey_rest {found : Option Value} {entry : String × Value}
    (h : Value.removeKey key entries = (found, rest)) (hmem : entry ∈ rest) : entry ∈ entries := by
  induction entries generalizing found rest with
  | nil =>
      cases h
      exact hmem
  | cons e entries ih =>
      obtain ⟨k, v⟩ := e
      unfold Value.removeKey at h
      split at h
      · cases h
        exact List.mem_cons_of_mem _ hmem
      · generalize hfound : Value.removeKey key entries = found' at h
        obtain ⟨found', rest'⟩ := found'
        cases h
        rcases List.mem_cons.mp hmem with rfl | hmem
        · exact List.mem_cons_self
        · exact List.mem_cons_of_mem _ (ih hfound hmem)

theorem sizeOf_entry (h : (key, value) ∈ entries) : sizeOf value < sizeOf (Value.object entries) := by
  have hlt := List.sizeOf_lt_of_mem h
  simp only [Prod.mk.sizeOf_spec, Value.object.sizeOf_spec] at hlt ⊢
  omega

theorem decodeReplyPayload_lt (h : decodeReplyPayload payload = .ok (status, response)) :
    sizeOf response < sizeOf payload := by
  unfold decodeReplyPayload at h
  split at h
  · split at h
    · rename_i entries _ s rest hstatus
      split at h
      · rename_i response' _ hresponse
        cases h
        exact sizeOf_entry (removeKey_rest hstatus (removeKey_mem hresponse))
      · cases h
    · cases h
  · cases h

/-! ## Encoding and decoding -/

/-- How a reference stands in a frame. -/
def Reference.json (reference : Option Reference) : Value :=
  (reference.map fun r => Value.string r.text).getD .null

theorem decodeJson_fields (joinReference reference : Option Reference) (topic event : String)
    (payload : Value) :
    decodeJson (some (.array [Reference.json joinReference, Reference.json reference,
      .string topic, .string event, payload])) =
        decodeFields joinReference reference ⟨topic⟩ (.ofString event) payload := by
  cases joinReference <;> cases reference <;> rfl

theorem decode_encodeJson (h : m.payload = .value value) :
    ∃ text, m.encodeJson = some (.ok text) ∧
      decodeJson text = decodeFields (m.joinReference?.map JoinReference.reference) m.reference?
        ⟨(m.topic?.map Topic.name).getD "phoenix"⟩ (.ofString m.event.display) value := by
  have hfields : m.jsonFields = some [Reference.json (m.joinReference?.map JoinReference.reference),
      Reference.json m.reference?, .string ((m.topic?.map Topic.name).getD "phoenix"),
      .string m.event.display, value] := by
    cases m with
    | control | broadcast | reply | push =>
        simp only [Message.payload] at h
        simp only [Message.jsonFields, h]
        rfl
  exact ⟨_, by rw [Message.encodeJson, hfields]; rfl, decodeJson_fields ..⟩

/-! ## Which messages come back -/

theorem decodeFields_push_iff {p : Push} {event : Event} (h : p.eventPayload.payload = .value value) :
    decodeFields (some p.joinReference.reference) p.reference p.topic event value =
        .ok (.push p) ↔
      event = p.eventPayload.event ∧ (p.reference = none ∨ event ≠ .phoenix .reply) := by
  obtain ⟨topic, ⟨event', payload'⟩, joinReference, reference⟩ := p
  obtain rfl : payload' = .value value := h
  cases reference with
  | none => simp [decodeFields]
  | some reference =>
      simp only [decodeFields]
      split
      · rename_i hreply
        constructor
        · intro hok
          obtain ⟨_, _, heq⟩ := bind_eq_ok.mp hok
          cases heq
        · simp [hreply]
      · simp [*]

theorem decodeFields_control_iff {c : Control} {topic : Topic} {event : Event}
    (h : c.payload = .value value) :
    decodeFields none c.reference topic event value = .ok (.control c) ↔
      event = c.event ∧ c.reference.isSome = true ∧ ∃ e, event = .phoenix e := by
  obtain ⟨event', payload', reference⟩ := c
  obtain rfl : payload' = .value value := h
  cases reference with
  | none => simp [decodeFields]
  | some reference => cases event <;> simp [decodeFields]

theorem decodeFields_ne_reply {r : Reply} {event : Event} (h : r.payload = .value value) :
    decodeFields (some r.joinReference.reference) (some r.reference) r.topic event value ≠
      .ok (.reply r) := by
  obtain ⟨topic, event', payload, joinReference, reference, status⟩ := r
  obtain rfl : payload = .value value := h
  intro hok
  simp only [decodeFields] at hok
  split at hok
  · obtain ⟨⟨status', response⟩, hdecode, heq⟩ := bind_eq_ok.mp hok
    cases heq
    exact absurd (decodeReplyPayload_lt hdecode) (Nat.lt_irrefl _)
  · cases hok

/-- The messages that come back: of a variant that is read back, with an event that is. -/
theorem decodeFields_iff (h : m.payload = .value value) :
    decodeFields (m.joinReference?.map JoinReference.reference) m.reference?
        ⟨(m.topic?.map Topic.name).getD "phoenix"⟩ (.ofString m.event.display) value = .ok m ↔
      m.event.Canonical ∧ m.JsonVariant := by
  rw [← ofString_display_iff]
  cases m with
  | control c =>
      refine (decodeFields_control_iff h).trans ?_
      refine and_congr_right fun hevent => ?_
      have hevent : Event.ofString c.event.display = c.event := hevent
      simp only [Message.event, hevent, Message.JsonVariant]
  | broadcast b =>
      obtain ⟨topic, event, payload⟩ := b
      obtain rfl : payload = .value value := h
      simp [decodeFields, Message.joinReference?, Message.reference?, Message.topic?, Message.event,
        Message.JsonVariant]
  | reply r =>
      refine iff_of_false (decodeFields_ne_reply h) ?_
      simp [Message.JsonVariant]
  | push p =>
      refine (decodeFields_push_iff h).trans ?_
      refine and_congr_right fun hevent => ?_
      have hevent : Event.ofString p.eventPayload.event.display = p.eventPayload.event := hevent
      simp only [Message.event, hevent, Message.JsonVariant]

end PhoenixChannels
