import PhoenixChannels.Socket.Lemmas.Effects

/-!
# Disconnects

After a disconnect was acknowledged the listener is idle: it neither has a connection nor waits to
make one, until a `Connect` command is processed.
-/

namespace PhoenixChannels.Socket

open Machine

/-! ## The property -/

namespace Entry

def acknowledgesDisconnect (e : Entry) : Bool :=
  e.effects.any fun
    | .disconnectedTx _ => true
    | _ => false

def processesConnect (e : Entry) : Bool :=
  match e.input with
  | .stateCommand (.connect _) _ => true
  | _ => false

def broadcastsConnected (e : Entry) : Bool :=
  e.effects.any fun
    | .connectivity .connected => true
    | _ => false

end Entry

/-- A disconnect was acknowledged and no `Connect` command was processed after it. -/
def disconnectHolds (trace : List Entry) : Bool :=
  trace.foldl (fun held e => !e.processesConnect && (held || e.acknowledgesDisconnect)) false

/-- While a disconnect holds the socket is not connected and tells no channel that it is. -/
def DisconnectSticks (w : World) : Prop :=
  ∀ before after, w.trace = before ++ after → disconnectHolds before = true →
    (∀ e ∈ after, e.processesConnect = false) →
    w.task.isConnected = false ∧ ∀ e ∈ after, e.broadcastsConnected = false

/-! ## The condition -/

/-- No `Disconnect` command is processed while the listener waits to reconnect. -/
def disconnectsOutsideReconnect (w : World) : Label → Bool
  | .select (.stateCommand (.disconnect _) _) =>
      match w.task with
      | .selecting (.waitingToReconnect _ _) => false
      | _ => true
  | _ => true

/-! ## The invariant -/

/-- A state that only a `Connect` command leads to a connection. -/
def State.idle : State → Bool
  | .neverConnected | .disconnected | .shuttingDown | .shutDown => true
  | .connected _ | .waitingToReconnect _ _ => false

def Task.idle (task : Task) : Prop := ∀ state, task.state = some state → state.idle = true

theorem Task.idle.isConnected {task : Task} (h : task.idle) : task.isConnected = false := by
  have hnone : task.connection = none := by
    cases hc : task.connection with
    | none => rfl
    | some c =>
        have hidle := h _ (connection_eq_some.mp hc)
        cases hidle
  rw [Task.isConnected, hnone]
  rfl

variable {w w' : World} {before : State} {input : Input} {iteration : Iteration} {e : Entry}
variable {trace : List Entry}

theorem disconnectHolds_append :
    disconnectHolds (trace ++ [e]) =
      (!e.processesConnect && (disconnectHolds trace || e.acknowledgesDisconnect)) := by
  simp [disconnectHolds, List.foldl_append]

theorem Entry.acknowledgesDisconnect_cases (h : e.Possible)
    (hack : e.acknowledgesDisconnect = true) :
    ∃ tx outcome, e.input = .stateCommand (.disconnect tx) outcome := by
  obtain ⟨effect, hmem, heffect⟩ := List.any_eq_true.mp hack
  have hcause := e.cause h hmem
  obtain ⟨time, before, input, effects⟩ := e
  cases hcause with
  | disconnected => exact ⟨_, _, rfl⟩
  | quiet hq =>
      have hq := hq.quiet
      cases effect <;> simp [Effect.quiet] at hq heffect
  | _ => simp at heffect

theorem UnconnectedIteration.idle {now : Instant} (h : UnconnectedIteration now before input iteration)
    (hidle : before.idle = true) (hinput : ∀ command outcome,
      input ≠ .stateCommand (.connect command) outcome) :
    (World.outcome iteration).1.idle := by
  intro state hstate
  cases h with
  | quiet hr hq =>
      simp only [World.outcome, Task.state_publishing, Option.some.injEq] at hstate
      exact hstate ▸ hidle
  | spawned uuid =>
      simp only [World.outcome, Task.state_publishing, Option.some.injEq] at hstate
      exact hstate ▸ hidle
  | connected => exact absurd rfl (hinput _ _)
  | connectFailed => exact absurd rfl (hinput _ _)
  | reconnected hs => rw [hs] at hidle; cases hidle
  | reconnectFailed hs => rw [hs] at hidle; cases hidle
  | disconnect =>
      simp only [World.outcome, Task.state_publishing, Option.some.injEq] at hstate
      exact hstate ▸ hidle
  | shutdown =>
      simp only [World.outcome, Task.state_publishing, Option.some.injEq] at hstate
      exact hstate ▸ rfl
  | exit => cases hstate
  | panic => cases hstate

theorem ConnectedIteration.idle {now : Instant} {fresh : TxId} {c : Connected} {tx : TxId}
    {outcome : ConnectOutcome}
    (h : ConnectedIteration now fresh c (.stateCommand (.disconnect tx) outcome) iteration)
    (hack : ∃ tx', .disconnectedTx tx' ∈ (World.outcome iteration).2) :
    (World.outcome iteration).1.idle := by
  obtain ⟨tx', hmem⟩ := hack
  intro state hstate
  cases h with
  | quiet heartbeat reference hr hq => exact absurd (hq _ hmem).quiet (by simp [Effect.quiet])
  | lost d hr hlost hq =>
      simp only [World.outcome, List.mem_append, mem_sendDisconnected, reduceCtorEq, false_or,
        exists_const, and_false] at hmem
      have hd : LostEffect d _ (.disconnectedTx tx') := hq _ (by simpa using hmem)
      cases hd with
      | quiet hq => cases hq.quiet
      | disconnect =>
          simp only [World.outcome, Task.state_publishing, Option.some.injEq] at hstate
          rw [← hstate, hlost]
          rfl
  | panic => cases hstate

theorem Entry.broadcastsConnected_of_idle (h : e.Possible) (hidle : e.before.idle = true)
    (hconnect : e.processesConnect = false) : e.broadcastsConnected = false := by
  by_contra hb
  have hb : e.broadcastsConnected = true := by simpa using hb
  obtain ⟨effect, hmem, heffect⟩ := List.any_eq_true.mp hb
  have hcause := e.cause h hmem
  obtain ⟨time, before, input, effects⟩ := e
  cases hcause with
  | connected => cases hconnect
  | reconnected => cases hidle
  | quiet hq =>
      have hq := hq.quiet
      cases effect <;> simp [Effect.quiet] at hq heffect
  | _ => simp at heffect

/-- While a disconnect holds the listener is idle. -/
def IdleSinceDisconnect (w : World) : Prop :=
  ∀ before after, w.trace = before ++ after → disconnectHolds before = true →
    (∀ e ∈ after, e.processesConnect = false) →
    w.task.idle ∧ ∀ e ∈ after, e.broadcastsConnected = false

/-- One iteration keeps it, when what it began in and what it acknowledges are as they should be. -/
theorem IdleSinceDisconnect.record (h : IdleSinceDisconnect w) (htask : w.task = .selecting before)
    (hpossible : Entry.Possible ⟨w.now, before, input, (World.outcome iteration).2⟩)
    (hidle : before.idle = true →
      Entry.processesConnect ⟨w.now, before, input, (World.outcome iteration).2⟩ = false →
      (World.outcome iteration).1.idle)
    (hack : Entry.acknowledgesDisconnect ⟨w.now, before, input, (World.outcome iteration).2⟩ = true →
      (World.outcome iteration).1.idle) :
    IdleSinceDisconnect (w.record before input iteration) := by
  have began : w.task.idle → before.idle = true := fun hi => hi before (by rw [htask]; rfl)
  intro start after htrace hholds hconnect
  rw [record_trace] at htrace
  rcases List.eq_nil_or_concat after with rfl | ⟨after, e, rfl⟩
  · -- the iteration itself may be the acknowledged disconnect
    rw [List.append_nil] at htrace
    refine ⟨?_, by simp⟩
    rw [← htrace, disconnectHolds_append, Bool.and_eq_true, Bool.not_eq_true', Bool.or_eq_true]
      at hholds
    rcases hholds.2 with hheld | hacked
    · exact hidle (began (h w.trace [] (by simp) hheld (by simp)).1) hholds.1
    · exact hack hacked
  · rw [List.concat_eq_append, ← List.append_assoc] at htrace
    obtain ⟨hstart, he⟩ := List.append_inj' htrace rfl
    obtain rfl := (List.cons.inj he).1
    rw [List.concat_eq_append] at hconnect ⊢
    obtain ⟨hi, hquiet⟩ := h start after hstart hholds
      (fun e he => hconnect e (List.mem_append_left _ he))
    have hlast := hconnect _ (List.mem_append_right _ (List.mem_singleton_self _))
    refine ⟨hidle (began hi) hlast, ?_⟩
    intro e he
    rcases List.mem_append.mp he with he | he
    · exact hquiet e he
    · obtain rfl := List.mem_singleton.mp he
      exact Entry.broadcastsConnected_of_idle hpossible (began hi) hlast

theorem idleSinceDisconnect_step {strategy : Option (Nat → Duration)} {label : Label}
    (h : IdleSinceDisconnect w) (hok : disconnectsOutsideReconnect w label = true)
    (hstep : (machine strategy).step w label = some w') : IdleSinceDisconnect w' := by
  cases step_cases hstep with
  | elapse duration => exact h
  | @connected c input iteration htask hfresh hiter =>
      have hpossible : Entry.Possible ⟨w.now, .connected c, input, (World.outcome iteration).2⟩ :=
        .connected rfl hiter rfl
      refine h.record htask hpossible (fun hidle => nomatch hidle) ?_
      intro hack
      obtain ⟨tx, outcome, rfl⟩ := Entry.acknowledgesDisconnect_cases hpossible hack
      obtain ⟨effect, hmem, heffect⟩ := List.any_eq_true.mp hack
      refine hiter.idle ?_
      cases effect with
      | disconnectedTx tx' => exact ⟨tx', hmem⟩
      | _ => simp at heffect
  | @unconnected state input iteration htask hs hfresh hiter =>
      have hpossible : Entry.Possible ⟨w.now, state, input, (World.outcome iteration).2⟩ :=
        .unconnected hs hiter rfl
      refine h.record htask hpossible ?_ ?_
      · intro hidle hconnect
        refine hiter.idle hidle ?_
        rintro command outcome rfl
        cases hconnect
      · intro hack
        obtain ⟨tx, outcome, rfl⟩ := Entry.acknowledgesDisconnect_cases hpossible hack
        refine hiter.idle ?_ (by simp)
        -- the listener does not wait to reconnect, by the condition on the step
        cases state with
        | connected c => exact absurd rfl (hs c)
        | waitingToReconnect sleep r => simp [disconnectsOutsideReconnect, htask] at hok
        | _ => rfl
  | pushed htask =>
      intro start after htrace hholds hconnect
      refine ⟨?_, (h start after htrace hholds hconnect).2⟩
      intro state hstate
      exact (h start after htrace hholds hconnect).1 state (by rw [htask]; exact hstate)
  | publish htask =>
      intro start after htrace hholds hconnect
      refine ⟨?_, (h start after htrace hholds hconnect).2⟩
      intro state hstate
      exact (h start after htrace hholds hconnect).1 state (by rw [htask]; exact hstate)

end PhoenixChannels.Socket
