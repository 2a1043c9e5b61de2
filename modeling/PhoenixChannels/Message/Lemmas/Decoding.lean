import PhoenixChannels.Message

/-!
# What a decoded message is
-/

namespace PhoenixChannels

variable {joinReference reference : Option Reference} {topic : Topic} {event : Event}
variable {payload : Value} {reply : Reply}

theorem ok_bind {ε α β : Type} {a : α} {f : α → Except ε β} : (Except.ok a >>= f) = f a := rfl

theorem bind_eq_ok {ε α β : Type} {x : Except ε α} {f : α → Except ε β} {b : β} :
    (x >>= f) = .ok b ↔ ∃ a, x = .ok a ∧ f a = .ok b := by
  cases x with
  | error => simp [bind, Except.bind]
  | ok a => simp [bind, Except.bind]

theorem decodeFields_reply
    (h : decodeFields joinReference reference topic event payload = .ok (.reply reply)) :
    reply.event = .phoenix .reply := by
  unfold decodeFields at h
  split at h
  · cases h
  · cases h
  · split at h
    · rename_i hevent
      cases hp : decodeReplyPayload payload with
      | error e => rw [hp] at h; cases h
      | ok decoded =>
          rw [hp] at h
          cases h
          exact hevent
    · cases h
  · split at h <;> cases h

theorem decodeFields_control {control : Control}
    (h : decodeFields joinReference reference topic event payload = .ok (.control control)) :
    control.reference.isSome = true := by
  unfold decodeFields at h
  split at h
  · cases h
  · cases h
  · split at h
    · obtain ⟨_, _, h⟩ := bind_eq_ok.mp h
      cases h
    · cases h
  · split at h <;> cases h
    rfl

theorem decode_control_reference {received : SocketMessage} {control : Control}
    (h : Message.decode received = some (.ok (.control control))) :
    control.reference.isSome = true := by
  cases received with
  | text json =>
      simp only [Message.decode, Option.some.injEq] at h
      unfold decodeJson at h
      split at h
      · cases h
      · simp only [bind, Except.bind] at h
        repeat' split at h
        all_goals first | cases h | exact decodeFields_control h
      · cases h
  | binary bytes =>
      simp only [Message.decode, Option.some.injEq] at h
      unfold decodeBinary at h
      simp only [bind, Except.bind, pure, Except.pure] at h
      repeat' split at h
      all_goals cases h
  | _ => cases h

theorem decode_reply_event {received : SocketMessage}
    (h : Message.decode received = some (.ok (.reply reply))) : reply.event = .phoenix .reply := by
  cases received with
  | text json =>
      simp only [Message.decode, Option.some.injEq] at h
      unfold decodeJson at h
      split at h
      · cases h
      · simp only [bind, Except.bind] at h
        repeat' split at h
        all_goals first | cases h | exact decodeFields_reply h
      · cases h
  | binary bytes =>
      simp only [Message.decode, Option.some.injEq] at h
      unfold decodeBinary at h
      simp only [bind, Except.bind, pure, Except.pure] at h
      repeat' split at h
      -- only the branch for replies is left
      all_goals cases h
      rfl
  | _ => cases h

end PhoenixChannels
