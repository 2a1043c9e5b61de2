import PhoenixChannels.Channel.Machine
import PhoenixChannels.Lib.History

/-!
# The leaves of a channel listener that shuts down
-/

namespace PhoenixChannels.Channel

open Machine History

variable {env : Surroundings} {w w' : World} {state : State} {label : Label} {ls : List Label}

/-! ## The property and its condition -/

/-- The state in which a step takes the shutdown, and what the listener finds then. -/
def shutsDown (w : World) (label : Label) : Option (Surroundings × State) :=
  match polled w label with
  | some (env, state, .shutdown) => if w.shutdownRx then some (env, state) else none
  | _ => none

/-- The channel is joining or joined on the connection that the socket has now: the socket listener
holds its senders, or has its join. -/
def State.onConnection (env : Surroundings) : State → Bool
  | joining j =>
      env.connectivity.sent.getLast? == some .connected &&
        match env.joined j.socketJoinedRx with
        | .pending => true
        | .sent (.ok receivers) => !env.pushClosed receivers.push
        | _ => false
  | joined j => !env.pushClosed j.pushRx
  | _ => false

/-- The leave that a step gives to the socket. -/
def givenLeave? (w : World) (label : Label) : Option PhoenixChannels.Leave :=
  match given w label with
  | some (.inl (.leave leave)) => some leave
  | _ => none

/-- A listener that has ended, and took its shutdown on the current connection, gave the socket a
leave of its channel after that; and in no other case it did. -/
def LeavesWhenDropped (steps : List (World × Label)) (w : World) : Prop :=
  w.task.isRunning = false → ∀ before v label after env state,
    steps = before ++ (v, label) :: after → shutsDown v label = some (env, state) →
      if state.onConnection env = true then
        ∃ x ∈ after, ∃ leave, givenLeave? x.1 x.2 = some leave ∧
          leave.topic = v.listener.topic ∧ leave.joinReference = v.listener.joinReference
      else ∀ x ∈ after, givenLeave? x.1 x.2 = none

/-- The listener never takes its shutdown while it is joining or joined on the current connection. -/
def shutsDownUnjoined (steps : List (World × Label)) : Bool :=
  steps.all fun (w, label) =>
    (shutsDown w label).all fun (env, state) => !state.onConnection env

/-! ## After the shutdown -/

/-- A task that has nothing left to do but to end. -/
def Task.stops : Task → Bool
  | selecting .shuttingDown [] _ | publishing .shuttingDown | exited _ | panicked _ => true
  | _ => false

theorem not_stops_of_polling {branch : Branch} {rest disabled : List Branch} :
    (Task.selecting state (branch :: rest) disabled).stops = false := by
  cases state <;> rfl

theorem Step.stops (h : Step w label w') (hw : w.task.stops = true) : w'.task.stops = true := by
  cases h with
  | asked | stateCommand | sendCommand => exact hw
  | poll hpoll =>
      cases hpoll with
      | breakOk => rfl
      | @round state disabled htask =>
          rw [htask] at hw
          cases state with
          | shuttingDown => rfl
          | _ => cases hw
      | pending htask | mismatch htask | ready htask =>
          rw [htask, not_stops_of_polling] at hw
          cases hw
  | sent htask | failed htask =>
      rw [htask] at hw
      cases hw
  | @publish state htask =>
      rw [htask] at hw
      cases state with
      | shuttingDown => rfl
      | _ => cases hw

theorem shutsDown_cases (h : shutsDown w label = some (env, state)) :
    ∃ rest disabled, label = .poll env ∧ w.task = .selecting state (.shutdown :: rest) disabled ∧
      w.shutdownRx = true := by
  unfold shutsDown at h
  split at h
  · rename_i env' state' hpolled
    split at h <;> cases h
    unfold polled at hpolled
    split at hpolled
    · split at hpolled <;> cases hpolled
      exact ⟨_, _, rfl, ‹_›, ‹_›⟩
    · cases hpolled
  · cases h

theorem stops_of_shutsDown (h : shutsDown w label = some (env, state))
    (hstep : machine.step w label = some w') : w'.task.stops = true := by
  obtain ⟨rest, disabled, rfl, htask, hshutdown⟩ := shutsDown_cases h
  simp only [machine, World.step, World.poll, htask, World.pollBranch, hshutdown, ↓reduceIte,
    World.readyNext, Option.map_some, Option.some.injEq] at hstep
  rw [← hstep]
  cases state <;> rfl

theorem givenLeave_of_stops (h : w.task.stops = true) : givenLeave? w label = none := by
  unfold givenLeave? given
  cases label with
  | sent fresh =>
      cases htask : w.task with
      | calling => rw [htask] at h; cases h
      | _ => rfl
  | _ => rfl

/-- A listener that has taken its shutdown gives the socket no leave. -/
theorem noLeaveAfter_of_run {ok : World → Label → Prop} {w₀ : World} (h : Run machine ok w₀ ls w) :
    Always (fun past x => (∃ y ∈ past, (shutsDown y.1 y.2).isSome) → givenLeave? x.1 x.2 = none)
      (machine.steps w₀ ls) := by
  refine (h.history (I := fun past w => ((∃ y ∈ past, (shutsDown y.1 y.2).isSome) →
    w.task.stops = true) ∧ Always (fun past x => (∃ y ∈ past, (shutsDown y.1 y.2).isSome) →
      givenLeave? x.1 x.2 = none) past) ?_ ?_).2
  · exact ⟨by simp, .nil⟩
  intro ls past w label w' _ ih _ hs
  obtain ⟨hstops, hnone⟩ := ih
  refine ⟨?_, hnone.append fun hpast => givenLeave_of_stops (hstops hpast)⟩
  rintro ⟨y, hy, hshuts⟩
  rcases List.mem_append.mp hy with hy | hy
  · exact (step_cases hs).stops (hstops ⟨y, hy, hshuts⟩)
  · cases List.mem_singleton.mp hy
    obtain ⟨⟨env, state⟩, hshuts⟩ := Option.isSome_iff_exists.mp hshuts
    exact stops_of_shutsDown hshuts hs

/-- A listener leaves when it is dropped if and only if it is not joined then. -/
theorem leavesWhenDropped_iff_of_run {ok : World → Label → Prop} {w₀ : World}
    (h : Run machine ok w₀ ls w) (hended : w.task.isRunning = false) :
    LeavesWhenDropped (machine.steps w₀ ls) w ↔ shutsDownUnjoined (machine.steps w₀ ls) = true := by
  have hnone := noLeaveAfter_of_run h
  generalize machine.steps w₀ ls = steps at hnone
  have after_none : ∀ {before after : List (World × Label)} {x : World × Label} {env state},
      steps = before ++ x :: after → shutsDown x.1 x.2 = some (env, state) →
      ∀ y ∈ after, givenLeave? y.1 y.2 = none := by
    intro before after x env state hsteps hshuts y hy
    obtain ⟨between, rest, rfl⟩ := List.append_of_mem hy
    refine hnone (before ++ x :: between) y rest (by simp [hsteps]) ⟨x, by simp, ?_⟩
    simp [hshuts]
  have hunjoined_iff : shutsDownUnjoined steps = true ↔ ∀ x ∈ steps, ∀ env state,
      shutsDown x.1 x.2 = some (env, state) → state.onConnection env = false := by
    simp only [shutsDownUnjoined, List.all_eq_true, Option.all_eq_true, Bool.not_eq_true',
      Prod.forall]
  rw [hunjoined_iff]
  constructor
  · rintro hleaves ⟨v, label⟩ hx env state hshuts
    obtain ⟨before, after, hsteps⟩ := List.append_of_mem hx
    have hleave := hleaves hended before v label after env state hsteps hshuts
    cases hon : state.onConnection env with
    | false => rfl
    | true =>
        rw [hon, if_pos rfl] at hleave
        obtain ⟨y, hy, leave, hgiven, _⟩ := hleave
        rw [after_none hsteps hshuts y hy] at hgiven
        cases hgiven
  · intro hunjoined _ before v label after env state hsteps hshuts
    rw [hunjoined (v, label) (by simp [hsteps]) env state hshuts, if_neg Bool.false_ne_true]
    exact after_none hsteps hshuts

end PhoenixChannels.Channel
