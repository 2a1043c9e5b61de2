import Mathlib.Data.List.Basic

/-!
# Bounded broadcast queues

Every receiver of a broadcast queue reads the messages sent since it subscribed, at its own pace.
The queue keeps only the last `capacity` messages: a receiver that is further behind first gets
`lagged` and goes on with the oldest message still kept.
-/

/-- What a receiver gets from one attempt to receive. -/
inductive Received (α : Type*)
  | empty
  | lagged (missed : Nat)
  | message (a : α)
deriving DecidableEq, Repr

structure BroadcastQueue (α : Type*) where
  capacity : Nat
  /-- All messages sent so far, the newest last. -/
  sent : List α

namespace BroadcastQueue

variable {α : Type*}

/-- The capacity of a queue that was asked for room for `requested` messages: the next power of
two. -/
def roundedCapacity (requested : Nat) : Nat :=
  if requested ≤ 1 then 1 else 1 <<< ((requested - 1).log2 + 1)

example : [1, 10, 50, 64].map roundedCapacity = [1, 16, 64, 64] := rfl

def send (q : BroadcastQueue α) (a : α) : BroadcastQueue α := { q with sent := q.sent ++ [a] }

/-- The position of a new receiver. -/
def subscribe (q : BroadcastQueue α) : Nat := q.sent.length

/-- One attempt of the receiver at position `next`, with its position afterwards. -/
def recv (q : BroadcastQueue α) (next : Nat) : Received α × Nat :=
  if next + q.capacity < q.sent.length then
    (.lagged (q.sent.length - q.capacity - next), q.sent.length - q.capacity)
  else
    match q.sent[next]? with
    | some a => (.message a, next + 1)
    | none => (.empty, next)

/-- What the receiver at position `next` can still read. -/
def unread (q : BroadcastQueue α) (next : Nat) : List α :=
  q.sent.drop (max next (q.sent.length - q.capacity))

@[simp] theorem send_sent (q : BroadcastQueue α) (a : α) : (q.send a).sent = q.sent ++ [a] := rfl

@[simp] theorem send_capacity (q : BroadcastQueue α) (a : α) :
    (q.send a).capacity = q.capacity := rfl

theorem recv_empty_iff {q : BroadcastQueue α} {next : Nat} :
    (q.recv next).1 = .empty ↔ q.sent.length ≤ next := by
  unfold recv
  split
  · simp only [reduceCtorEq, false_iff]; omega
  · split
    · rename_i a ha
      have := (List.getElem?_eq_some_iff.mp ha).1
      simp only [reduceCtorEq, false_iff]; omega
    · rename_i hn
      simpa using hn

theorem recv_message_eq {q : BroadcastQueue α} {next n : Nat} {a : α}
    (h : q.recv next = (.message a, n)) : q.sent[next]? = some a ∧ n = next + 1 := by
  unfold recv at h
  split at h
  · cases h
  · split at h
    · cases h
      exact ⟨‹_›, rfl⟩
    · cases h

theorem recv_empty_eq {q : BroadcastQueue α} {next n : Nat} (h : q.recv next = (.empty, n)) :
    n = next := by
  unfold recv at h
  split at h
  · cases h
  · split at h <;> cases h
    rfl

theorem unread_eq {q : BroadcastQueue α} {next : Nat} (h : q.sent.length ≤ next + q.capacity) :
    q.unread next = q.sent.drop next := by
  rw [unread, Nat.max_eq_left]
  omega

theorem recv_of_head? {q : BroadcastQueue α} {next : Nat} {a : α}
    (h : q.sent.length ≤ next + q.capacity) (ha : (q.unread next).head? = some a) :
    q.recv next = (.message a, next + 1) := by
  rw [unread_eq h, List.head?_drop] at ha
  rw [recv, if_neg (Nat.not_lt.mpr h), ha]

theorem recv_cases {q : BroadcastQueue α} {next : Nat} (h : q.sent.length ≤ next + q.capacity) :
    (∃ a, q.recv next = (.message a, next + 1) ∧ q.sent[next]? = some a) ∨
      q.recv next = (.empty, next) := by
  rw [recv, if_neg (Nat.not_lt.mpr h)]
  cases hget : q.sent[next]? with
  | none => exact .inr rfl
  | some a => exact .inl ⟨a, rfl, rfl⟩

theorem recv_lagged_eq {q : BroadcastQueue α} {next n missed : Nat}
    (h : q.recv next = (.lagged missed, n)) : n = next + missed ∧ n ≤ q.sent.length := by
  unfold recv at h
  split at h
  · cases h
    omega
  · split at h <;> cases h

theorem recv_message {q : BroadcastQueue α} {next n : Nat} {a : α} (hc : q.capacity = 1)
    (h : q.recv next = (.message a, n)) : q.sent.getLast? = some a ∧ n = q.sent.length := by
  unfold recv at h
  split at h
  · cases h
  · rename_i hlt
    split at h
    · rename_i b hb
      cases h
      obtain ⟨hn, hget⟩ := List.getElem?_eq_some_iff.mp hb
      have hlast : next = q.sent.length - 1 := by omega
      refine ⟨?_, by omega⟩
      rw [List.getLast?_eq_getElem?, ← hlast, hb]
    · cases h

end BroadcastQueue
