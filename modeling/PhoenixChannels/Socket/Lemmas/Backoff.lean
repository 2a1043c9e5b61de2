import PhoenixChannels.Lib.Backoff
import PhoenixChannels.Socket.Lemmas.Connection
import PhoenixChannels.Socket.Lemmas.Iterations

/-!
# Waiting to reconnect

The waits of a listener without a `ReconnectStrategy`, as a machine that backs off: a connect that is
honoured starts over, and so does a connection.
-/

namespace PhoenixChannels.Socket

open Machine

/-! ## The property -/

/-- The timeout of a connect that is honoured: one that is processed without a connection, and not
while the listener waits to reconnect. -/
def State.honours? (state : State) : Input → Option Duration
  | .stateCommand (.connect c) _ =>
      match state with
      | neverConnected | disconnected => some c.timeout
      | _ => none
  | _ => none

/-- The wait that an iteration begins: it comes from another state, or after the last wait. -/
def State.waitBegun? (now : Instant) (state : State) (input : Input) : State → Option Duration
  | waitingToReconnect sleep _ =>
      match state, input with
      | waitingToReconnect _ _, .sleepElapsed _ => some (sleep - now)
      | waitingToReconnect _ _, _ => none
      | _, _ => some (sleep - now)
  | _ => none

/-- The wait that begins when a step comes to `w'?`. -/
def World.waitBegun? (w : World) (label : Label) (w'? : Option World) : Option Duration :=
  match label, w.task with
  | .select input, .selecting state =>
      match w'?.map World.task with
      | some (.publishing state') => state.waitBegun? w.now input state'
      | _ => none
  | _, _ => none

/-- The waits of the listener, whose attempts are started by the connects that it honours. -/
def backoff : Backoff World Label where
  started? w label :=
    match label, w.task with
    | .select input, .selecting state => state.honours? input
    | _, _ => none
  wait? w label := w.waitBegun? label (World.step none w label)
  settled w := w.task.isConnected

/-! ## What a listener carries -/

/-- What a wait that begins now would go by. -/
def State.reconnect? : State → Option Reconnect
  | waitingToReconnect _ reconnect => some reconnect
  | connected c => some { connectTimeout := c.connectTimeout, attempts := 0 }
  | neverConnected | disconnected | shuttingDown | shutDown => none

def Reconnect.counter (reconnect : Reconnect) : Nat × Nat :=
  (reconnect.connectTimeout, reconnect.attempts.toNat)

def World.counter (w : World) : Option (Nat × Nat) :=
  (w.task.state.bind State.reconnect?).map Reconnect.counter

/-- What a wait that an iteration begins goes by. -/
def State.entered (state : State) (input : Input) : Option Reconnect :=
  match state.honours? input with
  | some timeout => some { connectTimeout := timeout, attempts := 0 }
  | none => state.reconnect?

/-- What an iteration does to the attempts: it keeps them, it connects, or it begins a wait, whose
length is the user's where there is a `ReconnectStrategy`. -/
inductive NextState (strategy : Option (Nat → Duration)) (now : Instant) (state : State)
    (input : Input) (state' : State) : Prop
  | kept : state.honours? input = none → state.waitBegun? now input state' = none →
      (∀ r, state'.reconnect? = some r → state.reconnect? = some r) →
      NextState strategy now state input state'
  | connects {r c} : state.entered input = some r → state' = .connected c →
      c.connectTimeout = r.connectTimeout → NextState strategy now state input state'
  | waits {r sleep} : state.entered input = some r → state' = .waitingToReconnect sleep r.next →
      (strategy = none → sleep = now + r.sleepDuration ∧
        state.waitBegun? now input state' = some r.sleepDuration) →
      NextState strategy now state input state'

variable {strategy : Option (Nat → Duration)} {now : Instant} {fresh : TxId} {c c' : Connected}
variable {state state' : State} {input : Input}
variable {iteration : Iteration} {effects : List Effect} {w w' : World} {label : Label}

/-! ## Iterations -/

theorem handleReply_connectTimeout {reply : Reply} :
    (c.handleReply reply fresh).1.connectTimeout = c.connectTimeout := by
  obtain ⟨_, _, _, _, h⟩ := c.handleReply_fst reply fresh
  rw [h]

theorem handleBroadcast_connectTimeout {b : Broadcast} :
    (c.handleBroadcast b).1.connectTimeout = c.connectTimeout := by
  obtain ⟨_, h⟩ := c.handleBroadcast_cases b
  rw [h]

theorem joinTimedOut_connectTimeout {key : JoinKey} :
    (c.joinTimedOut key).1.connectTimeout = c.connectTimeout := by
  rw [Connected.joinTimedOut_fst]
  rfl

theorem honours?_connected : (State.connected c).honours? input = none := by
  unfold State.honours?
  split <;> rfl

theorem NextState.connected (h : c'.connectTimeout = c.connectTimeout) :
    NextState strategy now (.connected c) input (.connected c') := by
  refine .kept honours?_connected rfl fun r hr => ?_
  simp only [State.reconnect?, h] at hr
  exact hr

theorem NextState.wait {r : Reconnect} (hentered : state.entered input = some r)
    (hbegun : ∀ sleep r', state.waitBegun? now input (.waitingToReconnect sleep r') =
      some (sleep - now)) : NextState strategy now state input (r.wait now) := by
  refine .waits hentered rfl fun _ => ⟨rfl, ?_⟩
  rw [Reconnect.wait, hbegun, Nat.add_sub_cancel_left]

theorem NextState.failed {r : Reconnect} (hentered : state.entered input = some r)
    (hbegun : ∀ sleep r', state.waitBegun? now input (.waitingToReconnect sleep r') =
      some (sleep - now)) : NextState strategy now state input (waitAfterFailure strategy now r) := by
  cases hstrategy : strategy with
  | none => exact .wait hentered hbegun
  | some sleepDuration => exact .waits hentered rfl (by simp)

theorem NextState.gone (hhonours : state.honours? input = none)
    (hwait : state.waitBegun? now input state' = none) (hreconnect : state'.reconnect? = none) :
    NextState strategy now state input state' := by
  refine .kept hhonours hwait fun r hr => ?_
  rw [hreconnect] at hr
  cases hr

theorem ConnectedIteration.nextState (h : ConnectedIteration now fresh c input iteration)
    (hstate : (World.outcome iteration).1.state = some state') :
    NextState strategy now (.connected c) input state' := by
  have same : ∀ c', State.connected c' = state' → c'.connectTimeout = c.connectTimeout →
      NextState strategy now (.connected c) input state' := by
    rintro c' rfl hsame
    exact .connected hsame
  cases h with
  | reply => exact same _ (Option.some.inj hstate) handleReply_connectTimeout
  | broadcast => exact same _ (Option.some.inj hstate) handleBroadcast_connectTimeout
  | timedOut => exact same _ (Option.some.inj hstate) joinTimedOut_connectTimeout
  | lost d _ hlost =>
      cases hstate
      subst hlost
      cases d with
      | reconnect =>
          refine .wait ?_ fun _ _ => rfl
          simp only [State.entered, honours?_connected]
          rfl
      | disconnect | shutdown => exact .gone honours?_connected rfl rfl
  | exit | panic => cases hstate
  | _ => exact same _ (Option.some.inj hstate) rfl

theorem NextState.same (hhonours : state.honours? input = none)
    (helapsed : ∀ outcome, input ≠ .sleepElapsed outcome) :
    NextState strategy now state input state := by
  refine .kept hhonours ?_ fun r hr => hr
  cases state with
  | waitingToReconnect sleep r =>
      cases input with
      | sleepElapsed outcome => exact absurd rfl (helapsed outcome)
      | _ => rfl
  | _ => rfl

theorem connect_nextState {connect : Connect} {outcome : ConnectOutcome}
    (hfresh : state = .neverConnected ∨ state = .disconnected)
    (hstate : (World.outcome (Iteration.ofPanics
      (Socket.connect strategy now state connect outcome))).1.state = some state') :
    NextState strategy now state (.stateCommand (.connect connect) outcome) state' := by
  have hentered : state.entered (.stateCommand (.connect connect) outcome) =
      some connect.reconnect := by
    rcases hfresh with rfl | rfl <;> rfl
  have hbegun : ∀ sleep r', state.waitBegun? now (.stateCommand (.connect connect) outcome)
      (.waitingToReconnect sleep r') = some (sleep - now) := by
    rcases hfresh with rfl | rfl <;> exact fun _ _ => rfl
  cases outcome with
  | connected => rcases hfresh with rfl | rfl <;> cases hstate <;> exact .connects hentered rfl rfl
  | error | timeout => rcases hfresh with rfl | rfl <;> cases hstate <;> exact .failed hentered hbegun

theorem reconnect_nextState {r : Reconnect} {sleep : Instant} {outcome : ConnectOutcome} :
    NextState strategy now (.waitingToReconnect sleep r) (.sleepElapsed outcome)
      (Socket.reconnect strategy now r outcome).1 := by
  cases outcome with
  | connected => exact .connects rfl rfl rfl
  | error | timeout => exact .failed rfl fun _ _ => rfl

theorem select_nextState_unconnected (hs : ∀ c, state ≠ .connected c)
    (h : select strategy now fresh state input = some iteration)
    (hstate : (World.outcome iteration).1.state = some state') :
    NextState strategy now state input state' := by
  cases input with
  | channelSpawn spawn uuid delivered =>
      simp only [select] at h
      split at h <;> cases h
      cases hstate
      exact .same rfl (by simp)
  | stateCommand command outcome =>
      simp only [select] at h
      split at h
      · cases h
        rename_i hready
        cases command with
        | connect connect =>
            cases state with
            | neverConnected => exact connect_nextState (.inl rfl) hstate
            | disconnected => exact connect_nextState (.inr rfl) hstate
            | connected c => exact absurd rfl (hs c)
            | waitingToReconnect =>
                cases hstate
                exact .same rfl (by simp)
            | shuttingDown | shutDown => cases hready
        | disconnect tx =>
            cases state with
            | connected c => exact absurd rfl (hs c)
            | _ =>
                cases hstate
                exact .same rfl (by simp)
        | shutdown =>
            cases state with
            | connected c => exact absurd rfl (hs c)
            | _ =>
                cases hstate
                exact .gone rfl rfl rfl
      · cases h
  | sleepElapsed outcome =>
      cases state with
      | waitingToReconnect sleep r =>
          simp only [select] at h
          split at h <;> cases h
          cases hstate
          exact reconnect_nextState
      | connected c => exact absurd rfl (hs c)
      | _ => cases h
  | _ =>
      cases state with
      | connected c => exact absurd rfl (hs c)
      | _ => cases h <;> cases hstate

theorem select_nextState (h : select strategy now fresh state input = some iteration)
    (hstate : (World.outcome iteration).1.state = some state') :
    NextState strategy now state input state' := by
  cases state with
  | connected c => exact (select_connected h).nextState hstate
  | _ => exact select_nextState_unconnected (by simp) h hstate

/-! ## Steps -/

theorem counter_eq_some {unit n : Nat} : w.counter = some (unit, n) ↔
    ∃ state r, w.task.state = some state ∧ state.reconnect? = some r ∧
      r.connectTimeout = unit ∧ r.attempts.toNat = n := by
  simp only [World.counter, Option.map_eq_some_iff, Option.bind_eq_some_iff, Reconnect.counter,
    Prod.mk.injEq]
  constructor
  · rintro ⟨r, ⟨state, hstate, hr⟩, hunit, hn⟩
    exact ⟨state, r, hstate, hr, hunit, hn⟩
  · rintro ⟨state, r, hstate, hr, hunit, hn⟩
    exact ⟨r, ⟨state, hstate, hr⟩, hunit, hn⟩

/-- A connection starts over. -/
theorem counter_settled {unit n : Nat} (h : w.counter = some (unit, n)) :
    n = if backoff.settled w then 0 else n := by
  split
  · rename_i hsettled
    obtain ⟨c, hc⟩ := Option.isSome_iff_exists.mp hsettled
    obtain ⟨state, r, hstate, hr, _, rfl⟩ := counter_eq_some.mp h
    rw [Task.connection_eq_some.mp hc] at hstate
    cases hstate
    cases hr
    rfl
  · rfl

theorem backoff_entered (htask : w.task = .selecting state) :
    backoff.entered World.counter w (.select input) =
      (state.entered input).map Reconnect.counter := by
  simp only [Backoff.entered, backoff, htask, State.entered, World.counter, Task.state_selecting]
  cases state.honours? input <;> rfl

/-- Steps that keep the state of the listener. -/
theorem counts_idle (hstarted : backoff.started? w label = none)
    (hwait : backoff.wait? w label = none) (hstate : w'.task.state = w.task.state) :
    backoff.Counts sleepDurationMultipliers 65535 World.counter w label w' := by
  refine .keeps hwait fun unit n hn => ⟨n, ?_, counter_settled hn⟩
  rw [Backoff.entered, hstarted, Option.map_none, Option.none_or]
  rwa [World.counter, hstate] at hn

/-- Steps after which the listener has no state. -/
theorem counts_ended (hwait : backoff.wait? w label = none) (hstate : w'.task.state = none) :
    backoff.Counts sleepDurationMultipliers 65535 World.counter w label w' := by
  refine .keeps hwait fun unit n hn => ?_
  obtain ⟨state, _, hsome, _⟩ := counter_eq_some.mp hn
  rw [hstate] at hsome
  cases hsome

/-- Iterations that come to a state. -/
theorem counts_nextState (htask : w.task = .selecting state)
    (hstate : w'.task.state = some state')
    (hwait : backoff.wait? w (.select input) = state.waitBegun? w.now input state')
    (hnext : NextState none w.now state input state') :
    backoff.Counts sleepDurationMultipliers 65535 World.counter w (.select input) w' := by
  have hentered : backoff.entered World.counter w (.select input) =
      (state.entered input).map Reconnect.counter := backoff_entered htask
  have hcounter : w'.counter = state'.reconnect?.map Reconnect.counter := by
    rw [World.counter, hstate]
    rfl
  cases hnext with
  | kept hhonours hbegun hkept =>
      refine .keeps (hwait.trans hbegun) fun unit n hn => ⟨n, ?_, counter_settled hn⟩
      rw [hcounter, Option.map_eq_some_iff] at hn
      obtain ⟨r, hr, hcounter⟩ := hn
      rw [hentered, State.entered, hhonours]
      simp only [hkept r hr, Option.map_some, hcounter]
  | @connects r c hr hconnected htimeout =>
      subst hconnected
      refine .keeps (hwait.trans rfl) fun unit n hn => ⟨r.attempts.toNat, ?_, ?_⟩
      · rw [hcounter] at hn
        cases hn
        rw [hentered, hr, htimeout]
        rfl
      · have hsettled : backoff.settled w' = true := by
          simp only [backoff, Task.isConnected, Task.connection, hstate, Option.isSome_some]
        have hzero := counter_settled hn
        rw [hsettled] at hzero ⊢
        exact hzero
  | @waits r sleep hr hwaiting hbegun =>
      subst hwaiting
      have hn : backoff.entered World.counter w (.select input) =
          some (r.connectTimeout, r.attempts.toNat) := by
        rw [hentered, hr]
        rfl
      refine .waits hn (hwait.trans (hbegun rfl).2) ?_ ?_
      · simp only [backoff, Task.isConnected, Task.connection, hstate, Option.isSome_none]
      · intro p hp
        rw [hcounter] at hp
        cases hp
        rw [← saturatingNext_toNat]
        rfl

/-- Every step of a listener without a `ReconnectStrategy` counts. -/
theorem step_counts (h : (machine none).step w label = some w') :
    backoff.Counts sleepDurationMultipliers 65535 World.counter w label w' := by
  have hstep : World.step none w label = some w' := h
  cases label with
  | elapse | pushed | publish => exact counts_idle rfl rfl (state_of_step h (by simp))
  | select input =>
      obtain ⟨state, iteration, htask, hselect, rfl⟩ := step_select h
      have hwait : backoff.wait? w (.select input) =
          match some (World.outcome iteration).1 with
          | some (.publishing state') => state.waitBegun? w.now input state'
          | _ => none := by
        simp only [backoff, World.waitBegun?, hstep, htask, Option.map_some, World.record]
      cases iteration with
      | next state' effects => exact counts_nextState htask rfl hwait (select_nextState hselect rfl)
      | push c pushTx push =>
          have hnext := select_nextState hselect rfl
          refine counts_nextState htask rfl (hwait.trans ?_) hnext
          rfl
      | exit | panic => exact counts_ended hwait rfl

end PhoenixChannels.Socket
