import PhoenixChannels.Socket.Lemmas.Terminations
import PhoenixChannels.System.Lemmas.Joins

/-!
# The status that a listener publishes

The status at the beginning of an iteration, and after the end of the task.
-/

namespace PhoenixChannels

/-! ## The property -/

/-- The status is that of the current state at each `select!`, and `ShutDown` when the task ended. -/
structure Socket.World.StatusPublished (w : World) : Prop where
  runs : ∀ state, w.task = .selecting state → w.status = state.status
  ended : ∀ result, w.task = .exited result → w.status = .shutDown

structure Channel.World.StatusPublished (w : World) : Prop where
  runs : ∀ state rest disabled, w.task = .selecting state rest disabled → w.status = state.status
  ended : ∀ result, w.task = .exited result → w.status = .shutDown

namespace Socket

open Machine

variable {strategy : Option (Nat → Duration)} {now : Instant} {fresh : TxId} {state : State}
variable {input : Input} {w w' : World} {label : Label}

/-! ## The socket listener -/

/-- The web socket gives no error that ends the listener. -/
def meetsNoEnd : Label → Bool
  | .select (.socketResult (.error error) _) => !error.shutsDown
  | _ => true

theorem exit_error {error : ShutdownError}
    (h : select strategy now fresh state input = some (.exit (.error error))) :
    meetsNoEnd (.select input) = false := by
  have hends := select_ends h rfl
  cases input with
  | socketResult result sent =>
      cases result with
      | ok => cases hends
      | error e =>
          simp only [Input.ends] at hends
          simp [meetsNoEnd, hends]
  | stateCommand command outcome =>
      cases command with
      | shutdown =>
          cases state with
          | shuttingDown | shutDown => cases h
          | _ => cases h
      | _ => cases hends
  | stop | closed => cases state <;> cases h
  | _ => cases hends

theorem StatusPublished.step (h : (machine strategy).step w label = some w')
    (hok : meetsNoEnd label = true) (hw : w.StatusPublished) : w'.StatusPublished := by
  cases label with
  | elapse =>
      cases h
      exact { hw with }
  | pushed =>
      simp only [machine, World.step] at h
      split at h <;> cases h
      exact ⟨fun _ h => (by cases h), fun _ h => (by cases h)⟩
  | publish =>
      simp only [machine, World.step] at h
      split at h <;> cases h
      constructor
      · intro state hstate
        cases hstate
        rfl
      · intro result hresult
        cases hresult
  | select input =>
      obtain ⟨state, iteration, _, hselect, rfl⟩ := step_select h
      cases iteration with
      | exit result =>
          cases result with
          | ok => exact ⟨fun _ h => (by cases h), fun _ _ => rfl⟩
          | error error =>
              rw [exit_error hselect] at hok
              cases hok
      | _ => exact ⟨fun _ h => (by cases h), fun _ h => (by cases h)⟩

theorem statusPublished_of_run {ls : List Label}
    (h : Run (machine strategy) (fun _ l => meetsNoEnd l = true) World.init ls w) :
    w.StatusPublished := by
  refine h.invariant ⟨?_, ?_⟩ fun _ _ _ ih hok hs => StatusPublished.step hs hok ih
  · intro state hstate
    cases hstate
    rfl
  · intro result hresult
    cases hresult

end Socket

namespace System

open Machine

variable {strategy : Option (Nat → Duration)} {s s' : System} {label : Label} {ls : List Label}
variable {c : JoinReference} {w w' : Channel.World}

/-- Every listener publishes its status. -/
structure StatusPublished (s : System) : Prop where
  socket : s.socket.StatusPublished
  channels : ∀ c w, s.channels.lookup c = some w → w.StatusPublished

/-- No listener ends with an error: the web socket gives none that ends the socket listener, no
channel listener finds the sender of its join dropped, and none is about to join when the socket
listener has ended. -/
def endsNormally (s : System) : Label → Bool
  | .select (.socketResult (.error error) _) => !error.shutsDown
  | .poll c =>
      match (s.channels.lookup c).map Channel.World.task with
      | some (.selecting (.joining joining) (.socketJoined :: _) _) =>
          match s.joined joining.socketJoinedRx with
          | .closed => false
          | _ => true
      | _ => true
  | .fail c =>
      match (s.channels.lookup c).map Channel.World.task, s.socketShutdownError with
      | some (.calling (.join _ _ _ _)), .ok _ => false
      | _, _ => true
  | _ => true

/-! ## The channel listeners -/

theorem proceed_statusPublished {flow : Channel.Flow}
    (h : ∀ error effects, flow ≠ .exit error effects) : (w.proceed flow).StatusPublished := by
  constructor
  · intro state rest disabled htask
    cases flow <;> cases htask
  · intro result htask
    cases flow with
    | exit error effects => exact absurd rfl (h error effects)
    | _ => cases htask

theorem ChannelStep.statusPublished (h : ChannelStep s s' c w label w')
    (hw : s.channels.lookup c = some w) (hok : endsNormally s label = true)
    (ih : w.StatusPublished) : w'.StatusPublished := by
  cases h with
  | user | stateCommand | sendCommand => exact { ih with }
  | forward => exact ⟨fun _ _ _ h => (by cases h), fun _ h => (by cases h)⟩
  | publish htask =>
      constructor
      · intro state rest disabled hstate
        cases hstate
        rfl
      · intro result hresult
        cases hresult
  | @fail call flow htask _ hflow =>
      refine proceed_statusPublished fun error effects hexit => ?_
      subst hexit
      rcases hflow with ⟨e, herror, hflow⟩ | ⟨reason, _, hflow⟩
      · cases call with
        | join => simp [endsNormally, hw, htask, herror] at hok
        | _ => cases hflow
      · cases hflow
  | poll hpoll =>
      cases hpoll with
      | breakOk => exact ⟨fun _ _ _ h => (by cases h), fun _ _ => rfl⟩
      | round htask | pending htask =>
          refine ⟨?_, fun _ h => (by cases h)⟩
          intro state rest disabled hstate
          cases hstate
          exact ih.runs _ _ _ htask
      | mismatch htask hmismatch =>
          refine ⟨?_, fun _ h => (by cases h)⟩
          intro state rest disabled hstate
          cases hstate
          have hstatus := ih.runs _ _ _ htask
          cases hmismatch <;> exact hstatus
      | ready htask hready =>
          refine proceed_statusPublished fun error effects hexit => ?_
          obtain ⟨joining, rfl, rfl, hclosed⟩ := hready.exited ⟨effects, hexit⟩
          simp only [surroundings] at hclosed
          simp [endsNormally, hw, htask, hclosed] at hok

/-! ## Runs -/

theorem statusPublished_of_run
    (h : Run (machine strategy) (fun s l => endsNormally s l = true) init ls s) :
    s.StatusPublished := by
  constructor
  · have hother : ∀ (v : Socket.World) (l : Socket.Label), (∀ input, l ≠ .select input) →
        Socket.meetsNoEnd l = true := by
      intro v l hl
      cases l with
      | select input => exact absurd rfl (hl input)
      | _ => rfl
    obtain ⟨ks, hks⟩ := socket_run_of (fun _ l => Socket.meetsNoEnd l = true) hother
      (fun s event input taken hok hreceive _ => by
        cases hreceive with
        | @socketResult result => cases result <;> exact hok
        | _ => exact hok) h
    exact Socket.statusPublished_of_run hks
  · intro c w hw
    refine h.invariant (I := fun s => ∀ c w, s.channels.lookup c = some w → w.StatusPublished)
      ?_ ?_ c w hw
    · intro c w hw
      rw [lookup_init] at hw
      cases hw
    intro s label s' ih hok hs c w' hw'
    cases (step_cases hs).channel_cases hw' with
    | kept hw => exact ih c w' hw
    | stepped hw h => exact h.statusPublished hw hok (ih c _ hw)
    | spawned _ h =>
        subst h
        constructor
        · intro state rest disabled hstate
          cases hstate
          rfl
        · intro result hresult
          cases hresult

end System

end PhoenixChannels
