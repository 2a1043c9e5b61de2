import PhoenixChannels.Overflow
import PhoenixChannels.Socket.Lemmas.Backoff

/-!
# What the socket listener computes with timeouts

The computations of each handler, in order, and the bounds that they keep to in a run.
-/

namespace PhoenixChannels.Socket

open Machine

variable {strategy : Option (Nat → Duration)} {now last latest : Instant} {timeout : Duration}
variable {state state' : State} {input : Input} {outcome : ConnectOutcome} {w w' : World}
variable {label : Label} {fresh : TxId} {c : Computation}

/-! ## The computations -/

/-- `Reconnect::wait` -/
def Reconnect.waitComputes (reconnect : Reconnect) : List Computation :=
  [.mul reconnect.connectTimeout (sleepDurationMultiplier reconnect.attempts)]

/-- `socket_connect`, and the wait after it where it fails and there is no `ReconnectStrategy`. -/
def socketConnectComputes (strategy : Option (Nat → Duration)) (createdAt : Instant)
    (reconnect : Reconnect) (outcome : ConnectOutcome) : List Computation :=
  .add createdAt reconnect.connectTimeout ::
    match outcome, strategy with
    | .connected, _ | _, some _ => []
    | _, none => reconnect.waitComputes

/-- The computations of an iteration. A connected listener comes to `WaitingToReconnect` by
`wait_to_reconnect_connected` alone. -/
def selectComputes (strategy : Option (Nat → Duration)) (now : Instant) (fresh : TxId)
    (state : State) (input : Input) : List Computation :=
  match state, input with
  | .neverConnected, .stateCommand (.connect c) outcome
  | .disconnected, .stateCommand (.connect c) outcome =>
      socketConnectComputes strategy c.createdAt c.reconnect outcome
  | .waitingToReconnect _ r, .sleepElapsed outcome => socketConnectComputes strategy now r outcome
  | .connected c, input =>
      match select strategy now fresh (.connected c) input with
      | some (.next (.waitingToReconnect _ _) _) =>
          Reconnect.waitComputes { connectTimeout := c.connectTimeout, attempts := 0 }
      | _ => []
  | _, _ => []

def computes (strategy : Option (Nat → Duration)) (w : World) : Label → List Computation
  | .select input =>
      match w.task with
      | .selecting state => selectComputes strategy w.now w.fresh state input
      | _ => []
  | _ => []

theorem socketConnect_computed {createdAt : Instant} {r : Reconnect}
    (houtcome : outcome ≠ .connected) :
    ∃ c ∈ socketConnectComputes none createdAt r outcome, c.wait? = some r.sleepDuration := by
  refine ⟨.mul r.connectTimeout (sleepDurationMultiplier r.attempts), ?_, rfl⟩
  cases outcome with
  | connected => exact absurd rfl houtcome
  | error | timeout => exact List.mem_cons_of_mem _ (List.mem_singleton_self _)

/-- The wait that a listener without a `ReconnectStrategy` begins is what it has computed. -/
theorem select_computed {effects : List Effect} {wait : Duration}
    (h : select none now fresh state input = some (.next state' effects))
    (hwait : state.waitBegun? now input state' = some wait) :
    ∃ c ∈ selectComputes none now fresh state input, c.wait? = some wait := by
  cases select_nextState h rfl with
  | kept _ hnone =>
      rw [hnone] at hwait
      cases hwait
  | connects _ hconnected =>
      subst hconnected
      cases hwait
  | @waits r sleep hr hwaiting hbegun =>
      subst hwaiting
      cases (hbegun rfl).2.symm.trans hwait
      cases state with
      | connected c =>
          rw [State.entered, honours?_connected] at hr
          cases hr
          simp only [selectComputes, h]
          exact ⟨_, List.mem_singleton_self _, rfl⟩
      | neverConnected | disconnected =>
          cases input with
          | stateCommand command outcome =>
              cases command with
              | connect c =>
                  cases hr
                  refine socketConnect_computed ?_
                  rintro rfl
                  cases h
              | _ => cases hr
          | _ => cases hr
      | waitingToReconnect sleep' r' =>
          cases input with
          | sleepElapsed outcome =>
              cases hr
              refine socketConnect_computed ?_
              rintro rfl
              simp only [select] at h
              split at h <;> cases h
          | _ => cases hwait
      | shuttingDown | shutDown =>
          cases input with
          | stateCommand command => cases command <;> cases hr
          | _ => cases hr

/-! ## The bounds -/

/-- The connect that an input brings goes back to an instant up to `latest` and a timeout up to
`timeout`, and `Socket::connect` has accepted it: it computes a deadline of its own. -/
def Input.Within (last latest : Instant) (timeout : Duration) : Input → Prop
  | stateCommand (.connect c) _ =>
      c.createdAt ≤ latest ∧ c.timeout ≤ timeout ∧ c.createdAt + c.timeout ≤ last
  | _ => True

instance : DecidablePred (Input.Within last latest timeout)
  | .stateCommand (.connect _) _ => inferInstanceAs (Decidable (_ ∧ _ ∧ _))
  | .stateCommand (.disconnect _) _ | .stateCommand .shutdown _ | .socketResult _ _
  | .channelSpawn _ _ _ | .channelStateCommand _ _ _ | .channelSendCommand _ _ _ | .joinTimeout _
  | .heartbeat _ _ | .sleepElapsed _ | .closed | .stop => isTrue trivial

def InputWithin (last latest : Instant) (timeout : Duration) (w : World) : Label → Prop
  | .select input => w.now ≤ latest ∧ input.Within last latest timeout
  | _ => True

instance : DecidablePred (InputWithin last latest timeout w)
  | .select _ => inferInstanceAs (Decidable (_ ∧ _))
  | .elapse _ | .pushed | .publish => isTrue trivial

/-- What the listener holds is within the bounds, whatever the number of its attempts. -/
def World.Within (timeout : Duration) (w : World) : Prop :=
  ∀ connectTimeout attempts, w.counter = some (connectTimeout, attempts) → connectTimeout ≤ timeout

theorem World.Within.reconnect (h : w.Within timeout) (htask : w.task = .selecting state) :
    ∀ r, state.reconnect? = some r → r.connectTimeout ≤ timeout := by
  intro r hr
  refine h r.connectTimeout r.attempts.toNat (counter_eq_some.mpr ⟨state, r, ?_, hr, rfl, rfl⟩)
  rw [htask]
  rfl

theorem waitComputes_within {r : Reconnect} (h : r.connectTimeout ≤ timeout) :
    ∀ c ∈ r.waitComputes, c.Within latest timeout := by
  intro c hc
  cases List.mem_singleton.mp hc
  exact Computation.within_mul _ h

theorem socketConnectComputes_within {createdAt : Instant} {r : Reconnect}
    (hcreated : createdAt ≤ latest) (h : r.connectTimeout ≤ timeout) :
    ∀ c ∈ socketConnectComputes strategy createdAt r outcome, c.Within latest timeout := by
  intro c hc
  rcases List.mem_cons.mp hc with rfl | hc
  · exact ⟨hcreated, h⟩
  · split at hc
    · cases hc
    · cases hc
    · exact waitComputes_within h c hc

theorem selectComputes_within (hnow : now ≤ latest) (hinput : input.Within last latest timeout)
    (hstate : ∀ r, state.reconnect? = some r → r.connectTimeout ≤ timeout) :
    ∀ c ∈ selectComputes strategy now fresh state input, c.Within latest timeout := by
  intro c hc
  unfold selectComputes at hc
  split at hc
  · exact socketConnectComputes_within hinput.1 hinput.2.1 c hc
  · exact socketConnectComputes_within hinput.1 hinput.2.1 c hc
  · exact socketConnectComputes_within hnow (hstate _ rfl) c hc
  · split at hc
    · exact waitComputes_within (hstate _ rfl) c hc
    · cases hc
  · cases hc

theorem socketConnectComputes_custom {sleepDuration : Nat → Duration} {createdAt : Instant}
    {r : Reconnect} (hc : c ∈ socketConnectComputes (some sleepDuration) createdAt r outcome) :
    c.wait? = none := by
  cases outcome <;> cases List.mem_singleton.mp hc <;> rfl

/-- With a `ReconnectStrategy`, only the wait after a connection is computed here: it has no length. -/
theorem selectComputes_custom {sleepDuration : Nat → Duration} {wait : Duration}
    (hc : c ∈ selectComputes (some sleepDuration) now fresh state input)
    (hwait : c.wait? = some wait) : wait = 0 := by
  have connects : ∀ createdAt r outcome,
      c ∈ socketConnectComputes (some sleepDuration) createdAt r outcome → wait = 0 := by
    intro createdAt r outcome hc
    cases (socketConnectComputes_custom hc).symm.trans hwait
  unfold selectComputes at hc
  split at hc
  · exact connects _ _ _ hc
  · exact connects _ _ _ hc
  · exact connects _ _ _ hc
  · split at hc
    · cases List.mem_singleton.mp hc
      cases hwait
      exact Nat.mul_zero _
    · cases hc
  · cases hc

theorem selectComputes_fits (hadd : latest + timeout ≤ last)
    (hmul : strategy = none → timeout * 10 ≤ maxDuration) (hnow : now ≤ latest)
    (hinput : input.Within last latest timeout)
    (hstate : ∀ r, state.reconnect? = some r → r.connectTimeout ≤ timeout) :
    ∀ c ∈ selectComputes strategy now fresh state input, c.fits last = true := by
  intro c hc
  have hwithin := selectComputes_within hnow hinput hstate c hc
  cases strategy with
  | none => exact hwithin.fits_of_mul hadd (hmul rfl)
  | some sleepDuration =>
      refine hwithin.fits hadd fun wait hwait => ?_
      rw [selectComputes_custom hc hwait]
      exact Nat.zero_le _

/-! ## Steps -/

/-- An iteration makes up no timeout. -/
theorem NextState.connectTimeout {r' : Reconnect} (h : NextState strategy now state input state')
    (hr' : state'.reconnect? = some r') :
    ∃ r, state.entered input = some r ∧ r'.connectTimeout = r.connectTimeout := by
  cases h with
  | kept hhonours _ hkept =>
      refine ⟨r', ?_, rfl⟩
      rw [State.entered, hhonours]
      exact hkept r' hr'
  | @connects r c hr hconnected htimeout =>
      subst hconnected
      cases hr'
      exact ⟨r, hr, htimeout⟩
  | @waits r sleep hr hwaiting =>
      subst hwaiting
      cases hr'
      exact ⟨r, hr, rfl⟩

theorem entered_within {r : Reconnect} (hinput : input.Within last latest timeout)
    (hstate : ∀ r, state.reconnect? = some r → r.connectTimeout ≤ timeout)
    (h : state.entered input = some r) : r.connectTimeout ≤ timeout := by
  unfold State.entered at h
  split at h
  · rename_i t ht
    cases h
    unfold State.honours? at ht
    split at ht
    · split at ht <;> cases ht
      · exact hinput.2.1
      · exact hinput.2.1
    · cases ht
  · exact hstate r h

theorem within_step (hw : w.Within timeout) (hl : InputWithin last latest timeout w label)
    (hstep : (machine strategy).step w label = some w') : w'.Within timeout := by
  cases label with
  | elapse | pushed | publish =>
      intro t n ht
      refine hw t n ?_
      rwa [World.counter, state_of_step hstep (by simp)] at ht
  | select input =>
      obtain ⟨state, iteration, htask, hselect, rfl⟩ := step_select hstep
      intro t n ht
      obtain ⟨state', r', hstate, hr', rfl, _⟩ := counter_eq_some.mp ht
      obtain ⟨r, hr, htimeout⟩ := (select_nextState hselect hstate).connectTimeout hr'
      rw [htimeout]
      exact entered_within hl.2 (hw.reconnect htask) hr

/-! ## Runs -/

/-- No step of a run overflows where the run keeps to the bounds; it may begin with any listener that
does, and so with any number of attempts. -/
def NeverOverflows (strategy : Option (Nat → Duration)) (last latest : Instant)
    (timeout : Duration) : Prop :=
  ∀ w₀ ls w, w₀.Within timeout →
    Run (machine strategy) (InputWithin last latest timeout) w₀ ls w →
    ∀ x ∈ (machine strategy).steps w₀ ls, ∀ c ∈ computes strategy x.1 x.2, c.fits last = true

theorem neverOverflows_of_fits (hadd : latest + timeout ≤ last)
    (hmul : strategy = none → timeout * 10 ≤ maxDuration) :
    NeverOverflows strategy last latest timeout := by
  intro w₀ ls w hw₀ hrun
  refine hrun.forall_steps fun ls w label hrun hl c hc => ?_
  have hw : w.Within timeout :=
    hrun.invariant hw₀ fun _ _ _ hw hl hstep => within_step hw hl hstep
  cases label with
  | select input =>
      simp only [computes] at hc
      split at hc
      · rename_i state htask
        exact selectComputes_fits hadd hmul hl.1 hl.2 (hw.reconnect htask) c hc
      · cases hc
  | elapse | pushed | publish => cases hc

/-- A listener that has never connected holds no timeout. -/
theorem within_init : World.init.Within timeout := by
  intro t n ht
  cases ht

/-- The listener at the end of the wait after its fourth failure. -/
def afterFourFailures (latest : Instant) (timeout : Duration) : World :=
  { World.init with
    now := latest
    task := .selecting (.waitingToReconnect 0 { connectTimeout := timeout, attempts := 4 }) }

theorem NeverOverflows.fits (h : NeverOverflows strategy last latest timeout) :
    latest + timeout ≤ last ∧ (strategy = none → timeout * 10 ≤ maxDuration) := by
  have hwithin : (afterFourFailures latest timeout).Within timeout := by
    intro t n ht
    cases ht
    exact Nat.le_refl _
  have hrun : Run (machine strategy) (InputWithin last latest timeout)
      (afterFourFailures latest timeout) [.select (.sleepElapsed (.error .io))] _ :=
    .single ⟨Nat.le_refl _, trivial⟩ rfl
  have hfits := h _ _ _ hwithin hrun
    (afterFourFailures latest timeout, .select (.sleepElapsed (.error .io))) (by simp [steps])
  constructor
  · exact of_decide_eq_true (hfits (.add latest timeout) List.mem_cons_self)
  · rintro rfl
    have hmul := hfits (.mul timeout 10) (List.mem_cons_of_mem _ (List.mem_singleton_self _))
    exact of_decide_eq_true hmul

end PhoenixChannels.Socket
