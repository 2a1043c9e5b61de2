import PhoenixChannels.Channel.Lemmas.Overflow

/-!
# A channel listener on a clock

The listener on a platform whose last `Instant` is `last`. A computation that overflows makes it panic,
and a wait that would end past the last instant is as long as `tokio` makes it. Within the bounds of
its instants and timeouts it is the listener whose times have no end.
-/

namespace PhoenixChannels.Channel

open Machine

def Effect.isStatusError : Effect → Bool
  | statusError _ => true
  | _ => false

/-- The task after a handler that has made these computations. -/
def Task.clocked (last now : Instant) (state : State) (computes : List Computation) (task : Task) :
    Panics Task :=
  if computes.all (Computation.fits last) then
    match task with
    | publishing (.waitingToRejoin sleep rejoin) =>
        match state.waitBegun? now (.waitingToRejoin sleep rejoin) with
        | some duration =>
            (sleepDeadline last now duration).map fun deadline =>
              publishing (.waitingToRejoin deadline rejoin)
        | none => some task
    | _ => some task
  else none

/-- The handler panics. A rejection is reported before the wait is computed, and answered after it. -/
def World.overflow (w w' : World) : World :=
  { w'.finish (.panicked .overflow) [] with
    effects := w.effects ++ (w'.effects.drop w.effects.length).filter Effect.isStatusError }

def World.clockedStep (last : Instant) (w : World) (label : Label) : Option World :=
  match polled w label with
  | some (env, state, branch) =>
      (w.step label).map fun w' =>
        match w'.task.clocked last env.now state (branchComputes env w state branch) with
        | some task => { w' with task }
        | none => w.overflow w'
  | none => w.step label

def clocked (last : Instant) : Machine World Label where
  step := World.clockedStep last

/-- The waits of the listener on a clock. -/
def clockedBackoff (last : Instant) : Backoff World Label :=
  { backoff with wait? w label := w.waitBegun? label (w.clockedStep last label) }

variable {env : Surroundings} {w w' : World} {state : State} {branch : Branch} {flow : Flow}
variable {read : Option TxId} {label : Label} {last latest : Instant} {timeout : Duration}
variable {computes : List Computation} {task : Task}

/-! ## Within the bounds -/

theorem clocked_of_fits (hfits : ∀ c ∈ computes, c.fits last = true)
    (htask : ∀ state, task ≠ .publishing state) :
    task.clocked last env.now state computes = some task := by
  unfold Task.clocked
  rw [if_pos (List.all_eq_true.mpr hfits)]
  split
  · exact absurd rfl (htask _)
  · rfl

/-- A wait that ends by the last instant is as long as it should be. -/
theorem BranchReady.clocked (h : BranchReady env w state branch w' flow)
    (hfits : ∀ c ∈ computes, c.fits last = true)
    (hends : ∀ wait, flow.waitBegun? env.now state = some wait → env.now + wait ≤ last) :
    (w'.proceed flow).task.clocked last env.now state computes = some (w'.proceed flow).task := by
  cases flow with
  | call | exit | panic => exact clocked_of_fits hfits (by simp [World.proceed, World.finish])
  | next state' effects =>
      cases state' with
      | waitingToRejoin sleep r =>
          have hall : computes.all (Computation.fits last) = true := List.all_eq_true.mpr hfits
          simp only [World.proceed, Task.clocked, hall, if_true]
          split
          · rename_i wait hwait
            have hsleep : sleep = env.now + wait := by
              cases h.nextFlow with
              | kept hnone | joins _ hnone => cases hnone.symm.trans hwait
              | waits _ hflow hbegun =>
                  cases hflow
                  cases hbegun.symm.trans hwait
                  rfl
            rw [sleepDeadline, if_pos (hends wait hwait), hsleep]
            rfl
          · rfl
      | _ =>
          simp only [Task.clocked]
          rw [if_pos (List.all_eq_true.mpr hfits)]
          rfl

/-- Within the bounds, the clock makes no difference. -/
theorem clockedStep_eq (hlast : latest + timeout * 10 ≤ last) (hmul : timeout * 10 ≤ maxDuration)
    (hw : w.Within latest timeout) (hl : InputWithin latest timeout label) :
    w.clockedStep last label = w.step label := by
  have hwithin := computes_within hw hl
  unfold World.clockedStep
  cases hpolled : polled w label with
  | none => rfl
  | some polled =>
      obtain ⟨env, state, branch⟩ := polled
      obtain ⟨rfl, _⟩ := polled_cases hpolled
      simp only [Channel.computes, hpolled] at hwithin
      have hfits : ∀ c ∈ branchComputes env w state branch, c.fits last = true := fun c hc =>
        (hwithin c hc).fits_of_mul (Computation.add_le_of_wait hlast) hmul
      cases hstep : machine.step w (.poll env) with
      | none =>
          have hstep : w.step (.poll env) = none := hstep
          simp only [hstep, Option.map_none]
      | some w' =>
          have hsame : w'.task.clocked last env.now state (branchComputes env w state branch) =
              some w'.task := by
            cases step_cases hstep with
            | poll hpoll =>
                cases hpoll with
                | breakOk | round | pending | mismatch =>
                    exact clocked_of_fits hfits (by simp [World.breakOk, World.finish])
                | ready htask hready =>
                    simp only [Channel.polled, htask, Option.some.injEq, Prod.mk.injEq] at hpolled
                    obtain ⟨_, rfl, rfl⟩ := hpolled
                    refine hready.clocked hfits fun wait hwait => ?_
                    obtain ⟨c, hc, hcomputed⟩ := hready.wait_computed hwait
                    have hle : wait ≤ timeout * 10 := (hwithin c hc).wait_le hcomputed
                    exact Nat.le_trans (Nat.add_le_add hl hle) hlast
          have hstep : w.step (.poll env) = some w' := hstep
          simp only [hstep, Option.map_some, hsame]

/-! ## Deadlines -/

theorem Task.clocked_eq_some {now : Instant} {task' : Task}
    (h : task.clocked last now state computes = some task') :
    (∀ c ∈ computes, c.fits last = true) ∧ task'.deadline? = task.deadline? := by
  unfold Task.clocked at h
  split at h
  · rename_i hall
    refine ⟨List.all_eq_true.mp hall, ?_⟩
    split at h
    · split at h
      · obtain ⟨deadline, _, rfl⟩ := Option.map_eq_some_iff.mp h
        rfl
      · cases h
        rfl
    · cases h
      rfl
  · cases h

/-- Only a handler that a branch runs comes to give a join to the socket. -/
theorem Step.deadline? {deadline : Instant} (h : Step w label w')
    (hdeadline : w'.task.deadline? = some deadline) :
    w.task.deadline? = some deadline ∨ ∃ env state branch, polled w label = some (env, state, branch) ∧
      ∃ c ∈ branchComputes env w state branch, c.deadline? = some deadline := by
  cases h with
  | asked | stateCommand | sendCommand => exact .inl hdeadline
  | @sent call => cases call <;> cases hdeadline
  | @failed call shutdownError =>
      cases shutdownError with
      | ok error =>
          cases call with
          | join state => cases state <;> cases hdeadline
          | _ => cases hdeadline
      | error reason => cases hdeadline
  | publish => cases hdeadline
  | @poll env _ read hpoll =>
      cases hpoll with
      | breakOk | round | pending | mismatch => cases hdeadline
      | @ready state branch rest disabled w' flow htask hready =>
          exact .inr ⟨env, state, branch, by simp [polled, htask], hready.deadline_computed hdeadline⟩

/-- Whatever its timeouts are, the listener on a clock gives the socket only joins whose deadline there
is. -/
theorem deadline_le_of_run {ok : World → Label → Prop} {ls : List Label} {listener : Listener}
    {before : Socket.State} {seen : Nat} (h : Run (clocked last) ok (start listener before seen) ls w) :
    ∀ deadline, w.task.deadline? = some deadline → deadline ≤ last := by
  refine h.invariant (I := fun w => ∀ deadline, w.task.deadline? = some deadline → deadline ≤ last)
    ?_ ?_
  · intro deadline hdeadline
    cases hdeadline
  intro w label w' ih _ hs deadline hdeadline
  simp only [clocked, World.clockedStep] at hs
  split at hs
  · rename_i env state branch hpolled
    obtain ⟨w₁, hstep, rfl⟩ := Option.map_eq_some_iff.mp hs
    split at hdeadline
    · rename_i task hclocked
      obtain ⟨hfits, hsame⟩ := Task.clocked_eq_some hclocked
      rcases (step_cases hstep).deadline? (hsame.symm.trans hdeadline) with
        hold | ⟨env', state', branch', hpolled', c, hc, hcomputed⟩
      · exact ih deadline hold
      · cases hpolled.symm.trans hpolled'
        exact Computation.deadline_le (hfits c hc) hcomputed
    · cases hdeadline
  · rename_i hpolled
    rcases (step_cases hs).deadline? hdeadline with hold | ⟨env, state, branch, hpolled', _⟩
    · exact ih deadline hold
    · cases hpolled.symm.trans hpolled'

/-! ## Waiting -/

/-- A channel listener waits by the schedule, as long as its instants and timeouts are within the
bounds. -/
theorem scheduled_of_run {ls : List Label} {listener : Listener} {before : Socket.State} {seen : Nat}
    (hlast : latest + timeout * 10 ≤ last) (hmul : timeout * 10 ≤ maxDuration)
    (h : Run (clocked last) (fun _ label => InputWithin latest timeout label)
      (start listener before seen) ls w) :
    (clockedBackoff last).Scheduled sleepDurationMultipliers
      ((clocked last).steps (start listener before seen) ls) := by
  have hwithin : ∀ ls w, Run (clocked last) (fun _ label => InputWithin latest timeout label)
      (start listener before seen) ls w → w.Within latest timeout := by
    intro ls w h
    apply h.invariant within_start
    intro w label w' hw hl hs
    have hstep : machine.step w label = some w' := (clockedStep_eq hlast hmul hw hl).symm.trans hs
    exact within_step hw hl hstep
  have counts : ∀ w label w', (w.Within latest timeout ∧ InputWithin latest timeout label) →
      (clocked last).step w label = some w' →
      (clockedBackoff last).Counts sleepDurationMultipliers 65535 World.counter w label w' := by
    rintro w label w' ⟨hw, hl⟩ hs
    have hsame := clockedStep_eq hlast hmul hw hl
    exact (step_counts (hsame.symm.trans hs)).of_wait (congrArg (w.waitBegun? label) hsame)
  exact Backoff.scheduled_of_run (by decide) (by decide) counter_start counts
    (h.strengthen hwithin)

end PhoenixChannels.Channel
