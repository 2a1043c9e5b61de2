import PhoenixChannels.Socket.Lemmas.Effects

/-!
# Join timeouts

When a join is answered with a timeout, and which timer does it. A timer carries only the topic and
the join reference, so it removes whatever join is pending there when it fires.
-/

namespace PhoenixChannels.Socket

open Machine

/-! ## The property -/

/-- The joins that an effect answers with a timeout. -/
def Effect.timedOut? : Effect → Option TxId
  | .joinedTx tx (.error .timeout) => some tx
  | _ => none

namespace Entry

def timedOut (e : Entry) : List TxId := e.effects.filterMap Effect.timedOut?

/-- The timer that fired. -/
def firedTimer (e : Entry) : Option JoinTimeout :=
  match e.before, e.input with
  | .connected c, .joinTimeout index => c.joinTimeouts[index]?
  | _, _ => none

/-- The join that was pending when the iteration began. -/
def pendingJoin (e : Entry) (key : JoinKey) : Option Join :=
  match e.before with
  | .connected c => c.pendingJoin key
  | _ => none

/-- The pending join `tx` is past its own deadline, and the timer that fired was started for it. -/
def OwnTimeout (e : Entry) (tx : TxId) : Prop :=
  ∃ timer ∈ e.firedTimer, ∃ join ∈ e.pendingJoin timer.key,
    join.joinedTx = tx ∧ timer.startedFor = tx ∧ join.deadline ≤ e.time

instance (e : Entry) (tx : TxId) : Decidable (e.OwnTimeout tx) := by
  unfold OwnTimeout; infer_instance

end Entry

/-- Every join that was answered with a timeout was past its own deadline and was removed by its
own timer. -/
def TimesOutAtOwnDeadline (w : World) : Prop :=
  ∀ e ∈ w.trace, ∀ tx ∈ e.timedOut, e.OwnTimeout tx

instance (w : World) : Decidable (TimesOutAtOwnDeadline w) :=
  inferInstanceAs (Decidable (∀ e ∈ w.trace, ∀ tx ∈ e.timedOut, e.OwnTimeout tx))

/-! ## The condition -/

/-- No timer of the channel is outstanding. -/
def Connected.timersDone (c : Connected) (key : JoinKey) : Bool :=
  c.joinTimeouts.all (fun timer => timer.key != key)

/-- A join is taken only when no timer of its channel is outstanding. -/
def joinsAfterTimers (w : World) : Label → Bool
  | .select (.channelStateCommand (.join join) _ (.ok ())) =>
      w.task.connection.all (fun c => c.timersDone join.key)
  | _ => true

/-! ## The invariant -/

/-- The timers of a channel that has a pending join were started for that join. -/
def TimersMatch (c : Connected) : Prop :=
  ∀ timer ∈ c.joinTimeouts, ∀ join, c.pendingJoin timer.key = some join →
    timer.startedFor = join.joinedTx ∧ timer.deadline = join.deadline

variable {c c' : Connected}

theorem TimersMatch.of_subset (h : TimersMatch c)
    (ht : ∀ timer ∈ c'.joinTimeouts, timer ∈ c.joinTimeouts)
    (hj : ∀ key join, c'.pendingJoin key = some join → c.pendingJoin key = some join) :
    TimersMatch c' :=
  fun timer hmem join hjoin => h timer (ht timer hmem) join (hj _ join hjoin)

theorem TimersMatch.joined {join : Join} (h : TimersMatch c) (hdone : c.timersDone join.key = true) :
    TimersMatch { c with
      joinByReferenceByTopic := c.joinByReferenceByTopic.put join.topic join.joinReference join
      joinTimeouts := c.joinTimeouts ++ [⟨join.deadline, join.key, join.joinedTx⟩] } := by
  intro timer hmem join' hjoin
  rw [Connected.joined_pendingJoin] at hjoin
  rcases List.mem_append.mp hmem with hmem | hmem
  · have hne : timer.key ≠ join.key := by
      simpa using List.all_eq_true.mp hdone timer hmem
    rw [if_neg hne] at hjoin
    exact h timer hmem join' hjoin
  · obtain rfl := List.mem_singleton.mp hmem
    rw [if_pos rfl] at hjoin
    obtain rfl := Option.some.inj hjoin
    exact ⟨rfl, rfl⟩

theorem timersMatch_invariant :
    ConnectionInvariant (fun w l => joinsAfterTimers w l = true) TimersMatch where
  fresh now timeout := by intro timer hmem; simp at hmem
  kept := by
    intro w c c' input effects htask h hok hiter
    cases hiter with
    | quiet heartbeat reference hr hq => exact h
    | spawned uuid => exact h
    | reply r hd =>
        refine h.of_subset (by simp) ?_
        intro key join hjoin
        rw [Connected.handleReply_pendingJoin] at hjoin
        split at hjoin
        · cases hjoin
        · exact hjoin
    | broadcast b hd =>
        obtain ⟨map, hmap⟩ := c.handleBroadcast_cases b
        rw [hmap]
        exact h
    | join j uuid =>
        refine h.joined ?_
        simpa [joinsAfterTimers, htask, Task.connection] using hok
    | leave l uuid => exact h.of_subset (by simp) (by simp)
    | call k uuid => exact h
    | cast k uuid => exact h
    | timedOut index timer htimer hdue =>
        rw [Connected.joinTimedOut_fst]
        refine h.of_subset ?_ ?_
        · intro timer hmem
          exact List.mem_of_mem_eraseIdx hmem
        · intro key join hjoin
          rw [Connected.removeJoin_pendingJoin] at hjoin
          split at hjoin
          · cases hjoin
          · exact hjoin
    | lost d hr hstate hq => exact absurd hstate.symm lostState_ne_connected

/-! ## What a timeout comes from -/

/-- Only a timer that fires gives a timeout, and it gives it to the pending join of its channel. -/
theorem Entry.timedOut_cases {e : Entry} (h : e.Possible) {tx : TxId} (htx : tx ∈ e.timedOut) :
    ∃ c timer join, e.before = .connected c ∧ e.firedTimer = some timer ∧ timer ∈ c.joinTimeouts ∧
      timer.deadline ≤ e.time ∧ c.pendingJoin timer.key = some join ∧ join.joinedTx = tx := by
  obtain ⟨effect, hmem, heffect⟩ := List.mem_filterMap.mp htx
  have hcause := e.cause h hmem
  obtain ⟨time, before, input, effects⟩ := e
  cases hcause with
  | timedOut index timer join htimer hdue hjoin =>
      exact ⟨_, timer, join, rfl, htimer, List.mem_of_getElem? htimer, hdue, hjoin,
        by simpa [Effect.timedOut?] using heffect⟩
  | quiet hq =>
      have hq := hq.quiet
      cases effect <;> simp [Effect.quiet, Effect.timedOut?] at hq heffect
  | joinFinished r join result hd hjoin hres =>
      rcases hres with ⟨joined, _, rfl⟩ | ⟨_, rfl⟩ <;> cases heffect
  | _ => cases heffect

end PhoenixChannels.Socket
