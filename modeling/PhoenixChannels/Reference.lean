import Mathlib.Data.List.Basic

/-!
# Topics, references, and the clock

`rust/reference.rs`, `rust/join_reference.rs` and `ffi/topic.rs`.
-/

namespace PhoenixChannels

/-- A point of the monotonic clock. -/
abbrev Instant := Nat

abbrev Duration := Nat

/-- Stands for one `oneshot`, `mpsc` or `broadcast` channel made while the program runs. -/
abbrev TxId := Nat

structure Topic where
  name : String
deriving DecidableEq, Repr

/-- A `Uuid::new_v4()` in its hyphenated upper-case form, which has 36 bytes. -/
structure Uuid where
  encoded : String
  size : encoded.utf8ByteSize = 36
deriving DecidableEq, Repr

structure Reference where
  text : String
deriving DecidableEq, Repr

namespace Reference

def prefixed (start : String) (uuid : Uuid) : Reference := ⟨start ++ uuid.encoded⟩

/-- `Reference::new()`; the argument is the random uuid it draws. -/
def new (uuid : Uuid) : Reference := prefixed "" uuid

def heartbeat (uuid : Uuid) : Reference := prefixed "heartbeat:" uuid

theorem new_text (uuid : Uuid) : (new uuid).text = uuid.encoded := by
  simp [new, prefixed]

theorem new_injective {u v : Uuid} (h : new u = new v) : u = v := by
  have ht := congrArg Reference.text h
  rw [new_text, new_text] at ht
  cases u; cases v
  simpa using ht

theorem new_size (uuid : Uuid) : (new uuid).text.utf8ByteSize = 36 := by
  rw [new_text]; exact uuid.size

end Reference

structure JoinReference where
  reference : Reference
deriving DecidableEq, Repr

def JoinReference.new (uuid : Uuid) : JoinReference := ⟨Reference.new uuid⟩

end PhoenixChannels
