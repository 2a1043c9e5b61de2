import PhoenixChannels.Errors
import PhoenixChannels.Lib.Backoff

/-!
# Times that overflow

`Instant + Duration` and `Duration * u32` panic when there is no such instant or duration. A `Duration`
is `u64` seconds with nanoseconds; which `Instant` is the last one depends on the platform. The
`sleep` of `tokio::time` takes every duration, and sleeps for thirty years where the end would be past
the last instant.
-/

namespace PhoenixChannels

/-- `Duration::MAX`, in nanoseconds. -/
def maxDuration : Duration := 18446744073709551616 * 1000000000 - 1

/-- The last `Instant` of a platform that has `i64` seconds with nanoseconds. -/
def lastInstant : Instant := 9223372036854775808 * 1000000000 - 1

/-- The thirty years of `Instant::far_future` in tokio. -/
def farFuture : Duration := 86400 * 365 * 30 * 1000000000

/-- The deadline of `tokio::time::sleep`. -/
def sleepDeadline (last now : Instant) (duration : Duration) : Panics Instant :=
  if now + duration ≤ last then some (now + duration)
  else if now + farFuture ≤ last then some (now + farFuture)
  else none

/-- A computation that panics on overflow. -/
inductive Computation
  /-- `instant + duration` -/
  | add (instant : Instant) (duration : Duration)
  /-- `duration * multiplier` -/
  | mul (duration : Duration) (multiplier : Nat)
deriving DecidableEq, Repr

namespace Computation

/-- The deadline that the computation gives when it does not overflow. -/
def deadline? : Computation → Option Instant
  | add instant duration => some (instant + duration)
  | mul _ _ => none

/-- The length of a wait that the computation gives when it does not overflow. -/
def wait? : Computation → Option Duration
  | add _ _ => none
  | mul duration multiplier => some (duration * multiplier)

/-- The computation does not overflow where `last` is the last `Instant`. -/
def fits (last : Instant) : Computation → Bool
  | add instant duration => instant + duration ≤ last
  | mul duration multiplier => duration * multiplier ≤ maxDuration

/-- A computation on instants up to `latest` and durations up to `timeout`, with one of the
multipliers. -/
def Within (latest : Instant) (timeout : Duration) : Computation → Prop
  | add instant duration => instant ≤ latest ∧ duration ≤ timeout
  | mul duration multiplier => duration ≤ timeout ∧ multiplier ≤ 10

variable {last latest : Instant} {timeout : Duration} {c : Computation}

theorem deadline_le {deadline : Instant} (hfits : c.fits last = true)
    (hdeadline : c.deadline? = some deadline) : deadline ≤ last := by
  cases c <;> cases hdeadline
  exact of_decide_eq_true hfits

theorem Within.fits (h : c.Within latest timeout) (hadd : latest + timeout ≤ last)
    (hwait : ∀ wait, c.wait? = some wait → wait ≤ maxDuration) : c.fits last = true := by
  cases c with
  | add instant duration =>
      have hsum : instant + duration ≤ latest + timeout := Nat.add_le_add h.1 h.2
      exact decide_eq_true (Nat.le_trans hsum hadd)
  | mul duration multiplier => exact decide_eq_true (hwait _ rfl)

/-- A bound with room for the longest wait has room for the timeout itself. -/
theorem add_le_of_wait (h : latest + timeout * 10 ≤ last) : latest + timeout ≤ last :=
  Nat.le_trans (Nat.add_le_add_left (Nat.le_mul_of_pos_right timeout (by decide)) latest) h

theorem Within.wait_le {wait : Duration} (h : c.Within latest timeout) (hwait : c.wait? = some wait) :
    wait ≤ timeout * 10 := by
  cases c <;> cases hwait
  exact Nat.mul_le_mul h.1 h.2

theorem Within.fits_of_mul (h : c.Within latest timeout) (hadd : latest + timeout ≤ last)
    (hmul : timeout * 10 ≤ maxDuration) : c.fits last = true :=
  h.fits hadd fun _ hwait => Nat.le_trans (h.wait_le hwait) hmul

/-- The computation of a wait. -/
theorem within_mul {duration : Duration} (attempts : UInt16) (h : duration ≤ timeout) :
    (mul duration (sleepDurationMultiplier attempts)).Within latest timeout := by
  refine ⟨h, ?_⟩
  have hlast : Backoff.schedule sleepDurationMultipliers 1 attempts.toNat ≤ 1 * 10 :=
    Backoff.schedule_le_last (by decide)
  rwa [Backoff.schedule, Nat.one_mul] at hlast

end Computation

end PhoenixChannels
