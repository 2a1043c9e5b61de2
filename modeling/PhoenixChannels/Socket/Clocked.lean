import PhoenixChannels.Socket.Lemmas.Overflow

/-!
# The socket listener on a clock

The listener on a platform whose last `Instant` is `last`. A computation that overflows makes it panic,
and a wait that would end past the last instant is as long as `tokio` makes it. Within the bounds of
its instants and timeouts it is the listener whose times have no end.
-/

namespace PhoenixChannels.Socket

open Machine

def Effect.isStatusError : Effect → Bool
  | statusError _ => true
  | _ => false

/-- The task after an iteration that has made these computations. -/
def Task.clocked (last now : Instant) (state : State) (input : Input) (computes : List Computation)
    (task : Task) : Panics Task :=
  if computes.all (Computation.fits last) then
    match task with
    | publishing (.waitingToReconnect sleep reconnect) =>
        match state.waitBegun? now input (.waitingToReconnect sleep reconnect) with
        | some duration =>
            (sleepDeadline last now duration).map fun deadline =>
              publishing (.waitingToReconnect deadline reconnect)
        | none => some task
    | _ => some task
  else none

/-- What an iteration has done when it panics: with a deadline that fits, the connect was tried, and
its failure was reported before the wait was computed. -/
def beforeOverflow (last : Instant) (computes : List Computation) (effects : List Effect) :
    List Effect :=
  match computes with
  | deadline :: _ => if deadline.fits last then effects.filter Effect.isStatusError else []
  | [] => []

def World.overflow (w : World) (state : State) (input : Input) (effects : List Effect) : World :=
  { w.record state input .panic with trace := w.trace ++ [⟨w.now, state, input, effects⟩] }

def World.clockedSelect (last : Instant) (strategy : Option (Nat → Duration)) (w : World)
    (state : State) (input : Input) (iteration : Iteration) : World :=
  let computes := selectComputes strategy w.now w.fresh state input
  match (World.outcome iteration).1.clocked last w.now state input computes with
  | some task => { w.record state input iteration with task }
  | none => w.overflow state input (beforeOverflow last computes (World.outcome iteration).2)

def World.clockedStep (last : Instant) (strategy : Option (Nat → Duration)) (w : World)
    (label : Label) : Option World :=
  match label with
  | .select input =>
      match w.task with
      | .selecting state =>
          if w.uuidFresh input then
            (Socket.select strategy w.now w.fresh state input).map
              (w.clockedSelect last strategy state input)
          else none
      | _ => none
  | _ => w.step strategy label

def clocked (last : Instant) (strategy : Option (Nat → Duration)) : Machine World Label where
  step := World.clockedStep last strategy

/-- The waits of the listener on a clock, where it has no `ReconnectStrategy`. -/
def clockedBackoff (last : Instant) : Backoff World Label :=
  { backoff with wait? w label := w.waitBegun? label (w.clockedStep last none label) }

variable {now last latest : Instant} {timeout : Duration} {state : State} {input : Input}
variable {iteration : Iteration} {w w' : World} {label : Label} {fresh : TxId} {task : Task}
variable {computes : List Computation}

/-! ## Within the bounds -/

theorem clocked_of_fits (hfits : ∀ c ∈ computes, c.fits last = true)
    (htask : ∀ state, task ≠ .publishing state) :
    task.clocked last now state input computes = some task := by
  unfold Task.clocked
  rw [if_pos (List.all_eq_true.mpr hfits)]
  split
  · exact absurd rfl (htask _)
  · rfl

/-- A wait that ends by the last instant is as long as it should be. -/
theorem outcome_clocked (h : select none now fresh state input = some iteration)
    (hfits : ∀ c ∈ computes, c.fits last = true)
    (hends : ∀ state' effects wait, iteration = .next state' effects →
      state.waitBegun? now input state' = some wait → now + wait ≤ last) :
    (World.outcome iteration).1.clocked last now state input computes =
      some (World.outcome iteration).1 := by
  cases iteration with
  | push | exit | panic => exact clocked_of_fits hfits (by simp [World.outcome])
  | next state' effects =>
      cases state' with
      | waitingToReconnect sleep r =>
          have hall : computes.all (Computation.fits last) = true := List.all_eq_true.mpr hfits
          simp only [World.outcome, Task.clocked, hall, if_true]
          split
          · rename_i wait hwait
            have hsleep : sleep = now + wait := by
              cases select_nextState h rfl with
              | kept _ hnone => cases hnone.symm.trans hwait
              | connects _ hconnected => cases hconnected
              | waits _ hwaiting hbegun =>
                  cases hwaiting
                  obtain ⟨hsleep, hbegun⟩ := hbegun rfl
                  cases hbegun.symm.trans hwait
                  exact hsleep
            rw [sleepDeadline, if_pos (hends _ _ wait rfl hwait), hsleep]
            rfl
          · rfl
      | _ =>
          simp only [World.outcome, Task.clocked]
          rw [if_pos (List.all_eq_true.mpr hfits)]

theorem clockedSelect_eq (hlast : latest + timeout * 10 ≤ last) (hmul : timeout * 10 ≤ maxDuration)
    (hw : w.Within timeout) (hl : InputWithin last latest timeout w (.select input))
    (htask : w.task = .selecting state)
    (h : select none w.now w.fresh state input = some iteration) :
    w.clockedSelect last none state input iteration = w.record state input iteration := by
  have hwithin : ∀ c ∈ selectComputes none w.now w.fresh state input, c.Within latest timeout :=
    selectComputes_within hl.1 hl.2 (hw.reconnect htask)
  have hsame : (World.outcome iteration).1.clocked last w.now state input
      (selectComputes none w.now w.fresh state input) = some (World.outcome iteration).1 := by
    apply outcome_clocked h
    · intro c hc
      exact (hwithin c hc).fits_of_mul (Computation.add_le_of_wait hlast) hmul
    · rintro state' effects wait rfl hwait
      obtain ⟨c, hc, hcomputed⟩ := select_computed h hwait
      have hle : wait ≤ timeout * 10 := (hwithin c hc).wait_le hcomputed
      exact Nat.le_trans (Nat.add_le_add hl.1 hle) hlast
  simp only [World.clockedSelect, hsame]
  rfl

/-- Within the bounds, the clock makes no difference. -/
theorem clockedStep_eq (hlast : latest + timeout * 10 ≤ last) (hmul : timeout * 10 ≤ maxDuration)
    (hw : w.Within timeout) (hl : InputWithin last latest timeout w label) :
    w.clockedStep last none label = w.step none label := by
  cases label with
  | elapse | pushed | publish => rfl
  | select input =>
      cases htask : w.task with
      | selecting state =>
          simp only [World.clockedStep, World.step, htask]
          split
          · apply Option.map_congr
            intro iteration hselect
            exact clockedSelect_eq hlast hmul hw hl htask hselect
          · rfl
      | _ => simp only [World.clockedStep, World.step, htask]

/-! ## Waiting -/

/-- A socket listener without a `ReconnectStrategy` waits by the schedule, as long as its instants and
timeouts are within the bounds. -/
theorem scheduled_of_run {ls : List Label} (hlast : latest + timeout * 10 ≤ last)
    (hmul : timeout * 10 ≤ maxDuration)
    (h : Run (clocked last none) (InputWithin last latest timeout) .init ls w) :
    (clockedBackoff last).Scheduled sleepDurationMultipliers
      ((clocked last none).steps .init ls) := by
  have hwithin : ∀ ls w, Run (clocked last none) (InputWithin last latest timeout) .init ls w →
      w.Within timeout := by
    intro ls w h
    apply h.invariant within_init
    intro w label w' hw hl hs
    have hstep : (machine none).step w label = some w' :=
      (clockedStep_eq hlast hmul hw hl).symm.trans hs
    exact within_step hw hl hstep
  have counts : ∀ w label w', (w.Within timeout ∧ InputWithin last latest timeout w label) →
      (clocked last none).step w label = some w' →
      (clockedBackoff last).Counts sleepDurationMultipliers 65535 World.counter w label w' := by
    rintro w label w' ⟨hw, hl⟩ hs
    have hsame := clockedStep_eq hlast hmul hw hl
    exact (step_counts (hsame.symm.trans hs)).of_wait (congrArg (w.waitBegun? label) hsame)
  exact Backoff.scheduled_of_run (by decide) (by decide) rfl counts (h.strengthen hwithin)

end PhoenixChannels.Socket
