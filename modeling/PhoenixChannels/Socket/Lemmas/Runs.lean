import PhoenixChannels.Socket.Lemmas.Iterations

/-!
# Runs of the socket listener

Rules for what holds along a run: of the connection the listener has, and of the entries of the
trace.
-/

namespace PhoenixChannels.Socket

open Machine

variable {strategy : Option (Nat → Duration)} {ok : World → Label → Prop} {ls : List Label}
variable {w : World} {before : State} {input : Input} {iteration : Iteration}

/-! ## Recording an iteration -/

@[simp] theorem record_now : (w.record before input iteration).now = w.now := rfl

@[simp] theorem record_task :
    (w.record before input iteration).task = (World.outcome iteration).1 := rfl

@[simp] theorem record_trace : (w.record before input iteration).trace =
    w.trace ++ [⟨w.now, before, input, (World.outcome iteration).2⟩] := rfl

@[simp] theorem record_effects :
    (w.record before input iteration).effects = w.effects ++ (World.outcome iteration).2 := by
  simp [World.effects]

@[simp] theorem record_uuids :
    (w.record before input iteration).uuids = w.uuids ++ input.uuid?.toList := rfl

theorem uuidFresh_iff : w.uuidFresh input = true ↔ ∀ u, input.uuid? = some u → u ∉ w.uuids := by
  cases h : input.uuid? <;> simp [World.uuidFresh, h]

/-! ## The entries of a trace -/

/-- An entry records an iteration of the listener. -/
inductive Entry.Possible (e : Entry) : Prop
  | connected {fresh : TxId} {c : Connected} {iteration : Iteration} :
      e.before = .connected c → ConnectedIteration e.time fresh c e.input iteration →
      e.effects = (World.outcome iteration).2 → Possible e
  | unconnected {iteration : Iteration} :
      (∀ c, e.before ≠ .connected c) → UnconnectedIteration e.time e.before e.input iteration →
      e.effects = (World.outcome iteration).2 → Possible e

theorem possible_of_run (h : Run (machine strategy) ok World.init ls w) :
    ∀ e ∈ w.trace, e.Possible := by
  refine h.invariant (I := fun w => ∀ e ∈ w.trace, e.Possible) (by simp [World.init]) ?_
  intro w label w' ih _ hstep
  cases step_cases hstep with
  | elapse duration => exact ih
  | connected htask hfresh hiter =>
      intro e he
      rcases List.mem_append.mp he with he | he
      · exact ih e he
      · obtain rfl := List.mem_singleton.mp he
        exact .connected rfl hiter rfl
  | unconnected htask hs hfresh hiter =>
      intro e he
      rcases List.mem_append.mp he with he | he
      · exact ih e he
      · obtain rfl := List.mem_singleton.mp he
        exact .unconnected hs hiter rfl
  | pushed htask => exact ih
  | publish htask => exact ih

/-! ## Invariants of the connection -/

/-- What a fresh connection has and every iteration keeps. -/
structure ConnectionInvariant (ok : World → Label → Prop) (I : Connected → Prop) : Prop where
  fresh (now : Instant) (timeout : Duration) : I (Connected.new now timeout)
  kept {w : World} {c c' : Connected} {input : Input} {effects : List Effect} :
    w.task = .selecting (.connected c) → I c → ok w (.select input) →
    ConnectedIteration w.now w.fresh c input (.next (.connected c') effects) → I c'

theorem lostState_ne_connected {now : Instant} {c c' : Connected} {d : Disconnected} :
    lostState now c d ≠ .connected c' := by cases d <;> simp [lostState, Reconnect.wait]

variable {I : Connected → Prop}

/-- It holds of the connection in every state that a run reaches, and of the connection with which
any iteration began. -/
theorem ConnectionInvariant.of_run (hI : ConnectionInvariant ok I)
    (h : Run (machine strategy) ok World.init ls w) :
    (∀ c, w.task.state = some (.connected c) → I c) ∧
      ∀ e ∈ w.trace, ∀ c, e.before = .connected c → I c := by
  refine h.invariant (I := fun w => (∀ c, w.task.state = some (.connected c) → I c) ∧
    ∀ e ∈ w.trace, ∀ c, e.before = .connected c → I c) (by simp [World.init, Task.state]) ?_
  intro w label w' ⟨ihc, iht⟩ hok hstep
  -- an iteration that began in `before`
  have recorded : ∀ {before : State} {input : Input} {iteration : Iteration},
      w.task = .selecting before →
      ∀ e ∈ (w.record before input iteration).trace, ∀ c, e.before = .connected c → I c := by
    intro before input iteration htask e he c hc
    rcases List.mem_append.mp he with he | he
    · exact iht e he c hc
    · obtain rfl := List.mem_singleton.mp he
      exact ihc c (by rw [htask]; exact congrArg some hc)
  cases step_cases hstep with
  | elapse duration => exact ⟨ihc, iht⟩
  | @connected c input iteration htask hfresh hiter =>
      refine ⟨?_, recorded htask⟩
      have hc : I c := ihc c (by rw [htask]; rfl)
      intro c' hc'
      cases iteration with
      | next state effects =>
          obtain rfl : state = .connected c' := by simpa [World.outcome] using hc'
          exact hI.kept htask hc hok hiter
      | push c₁ pushTx push =>
          obtain rfl : c₁ = c' := by simpa [World.outcome, Task.state] using hc'
          cases hiter
          exact hc
      | exit result => simp [World.outcome, Task.state] at hc'
      | panic => simp [World.outcome, Task.state] at hc'
  | @unconnected state input iteration htask hs hfresh hiter =>
      refine ⟨?_, recorded htask⟩
      intro c' hc'
      cases hiter with
      | quiet => exact absurd (by simpa [World.outcome] using hc') (hs c')
      | spawned => exact absurd (by simpa [World.outcome] using hc') (hs c')
      | connected =>
          obtain rfl : Connected.new w.now _ = c' := by simpa [World.outcome] using hc'
          exact hI.fresh _ _
      | reconnected =>
          obtain rfl : Connected.new w.now _ = c' := by simpa [World.outcome] using hc'
          exact hI.fresh _ _
      | connectFailed => simp [World.outcome] at hc'
      | reconnectFailed => simp [World.outcome] at hc'
      | disconnect => exact absurd (by simpa [World.outcome] using hc') (hs c')
      | shutdown => simp [World.outcome] at hc'
      | exit => simp [World.outcome, Task.state] at hc'
      | panic => simp [World.outcome, Task.state] at hc'
  | pushed htask =>
      refine ⟨?_, iht⟩
      intro c' hc'
      exact ihc c' (by rw [htask]; simpa [Task.state] using hc')
  | publish htask =>
      refine ⟨?_, iht⟩
      intro c' hc'
      exact ihc c' (by rw [htask]; simpa using hc')

/-! ## Invariants of the connection and the trace -/

/-- What a fresh connection has with the trace up to it, and every iteration keeps. -/
structure TraceInvariant (ok : World → Label → Prop) (J : List Entry → Connected → Prop) : Prop where
  fresh {trace : List Entry} {e : Entry} (now : Instant) (timeout : Duration) :
    .connectivity .connected ∈ e.effects → J (trace ++ [e]) (Connected.new now timeout)
  kept {w : World} {c c' : Connected} {input : Input} {iteration : Iteration} :
    w.task = .selecting (.connected c) → J w.trace c → ok w (.select input) →
    ConnectedIteration w.now w.fresh c input iteration →
    (World.outcome iteration).1.state = some (.connected c') →
    J (w.trace ++ [⟨w.now, .connected c, input, (World.outcome iteration).2⟩]) c'

theorem TraceInvariant.of_run {J : List Entry → Connected → Prop} (hJ : TraceInvariant ok J)
    (h : Run (machine strategy) ok World.init ls w) :
    ∀ c, w.task.state = some (.connected c) → J w.trace c := by
  refine h.invariant (I := fun w => ∀ c, w.task.state = some (.connected c) → J w.trace c)
    (by simp [World.init, Task.state]) ?_
  intro w label w' ih hok hstep c' hc'
  cases step_cases hstep with
  | elapse duration => exact ih c' hc'
  | connected htask hfresh hiter =>
      exact hJ.kept htask (ih _ (by rw [htask]; rfl)) hok hiter hc'
  | unconnected htask hs hfresh hiter =>
      cases hiter with
      | connected hs hq =>
          obtain rfl : Connected.new w.now _ = c' := by simpa [World.outcome] using hc'
          exact hJ.fresh _ _ (by simp [World.outcome])
      | reconnected hs hdue =>
          obtain rfl : Connected.new w.now _ = c' := by simpa [World.outcome] using hc'
          exact hJ.fresh _ _ (by simp [World.outcome])
      | quiet | spawned | disconnect => exact absurd (by simpa [World.outcome] using hc') (hs c')
      | connectFailed | reconnectFailed | shutdown => simp [World.outcome] at hc'
      | exit | panic => cases hc'
  | pushed htask => exact ih c' (by rw [htask]; exact hc')
  | publish htask => exact ih c' (by rw [htask]; exact hc')

end PhoenixChannels.Socket
