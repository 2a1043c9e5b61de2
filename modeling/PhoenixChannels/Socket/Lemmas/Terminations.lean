import PhoenixChannels.Socket.Lemmas.Connectivity
import PhoenixChannels.Socket.Lemmas.Senders

/-!
# How the socket listener terminates

The iterations that lead to the end of the task, the last connectivity change before it, and the
answers to the joins and calls of the connection that a shutdown finds.
-/

namespace PhoenixChannels

/-- The errors for which `handle_socket_error` returns a `ShutdownError`. -/
def WebSocketError.shutsDown : WebSocketError → Bool
  | .attackAttempt | .url | .http | .httpFormat => true
  | _ => false

namespace Socket

open Machine

variable {strategy : Option (Nat → Duration)} {now : Instant} {fresh : TxId} {c : Connected}
variable {state : State} {input : Input} {iteration : Iteration} {w w' : World} {label : Label}

/-! ## Iterations that lead to the end -/

/-- The listener shuts down, or its task ends by itself. -/
def Iteration.ends : Iteration → Bool
  | .next .shuttingDown _ | .next .shutDown _ | .exit _ => true
  | _ => false

theorem ends_bind {α : Type} {x : Panics α} {f : α → Panics (State × List Effect)}
    (h : ∀ a, (Iteration.ofPanics (f a)).ends = false) :
    (Iteration.ofPanics (x >>= f)).ends = false := by
  cases x with
  | none => rfl
  | some a => exact h a

theorem updateChannelState_ends {command : ChannelStateCommand} {uuid : Uuid}
    {sent : Except WebSocketError Unit} :
    (Iteration.ofPanics (updateChannelState now c command uuid sent)).ends = false := by
  cases command with
  | join j => exact ends_bind fun _ => ends_bind fun _ => by cases sent <;> rfl
  | leave l => exact ends_bind fun _ => ends_bind fun _ => by cases sent <;> rfl

theorem send_ends {command : ChannelSendCommand} {uuid : Uuid} {sent : Except WebSocketError Unit} :
    (Iteration.ofPanics (send now c command uuid sent)).ends = false := by
  cases command with
  | call k => exact ends_bind fun _ => ends_bind fun _ => by cases sent <;> rfl
  | cast k => exact ends_bind fun _ => ends_bind fun _ => by cases sent <;> rfl

theorem heartbeat_ends {uuid : Uuid} {sent : Except WebSocketError Unit} :
    (Iteration.ofPanics (heartbeat now c uuid sent)).ends = false := by
  unfold heartbeat
  split
  · rfl
  · exact ends_bind fun _ => ends_bind fun _ => by cases sent <;> rfl

theorem handleSocketMessage_ends {message : SocketMessage} {sent : Except WebSocketError Unit} :
    (handleSocketMessage now c message sent fresh).ends = false := by
  have decoded : ∀ m, (handleMessage now c m fresh).ends = false := by
    intro m
    cases m with
    | control | reply | push =>
        simp only [handleMessage]
        split <;> rfl
    | broadcast => rfl
  cases message with
  | ping => cases sent <;> rfl
  | pong | close | frame => rfl
  | text | binary =>
      simp only [handleSocketMessage]
      split
      · rename_i d _
        cases d with
        | ok m => exact decoded m
        | error => rfl
      · rfl

theorem handleSocketError_ends {error : WebSocketError}
    (h : (handleSocketError now c error).ends = true) : error.shutsDown = true := by
  cases error <;> first | rfl | cases h

theorem waitAfterFailure_ends {reconnect : Reconnect} {effects : List Effect} :
    (Iteration.next (waitAfterFailure strategy now reconnect) effects).ends = false := by
  cases strategy <;> rfl

theorem connect_ends {connect : Connect} {outcome : ConnectOutcome}
    (hserves : state.serves = true) :
    (Iteration.ofPanics (Socket.connect strategy now state connect outcome)).ends = false := by
  cases state with
  | neverConnected | disconnected =>
      cases outcome with
      | connected => rfl
      | error | timeout => exact waitAfterFailure_ends
  | connected | waitingToReconnect => rfl
  | shuttingDown | shutDown => cases hserves

/-- An input on which the listener shuts down or ends: it is told to, or a web socket error. -/
def Input.ends : Input → Bool
  | .stateCommand .shutdown _ | .stop | .closed => true
  | .socketResult (.error error) _ => error.shutsDown
  | _ => false

theorem select_ends (h : select strategy now fresh state input = some iteration)
    (hends : iteration.ends = true) : input.ends = true := by
  cases input with
  | socketResult result sent =>
      cases state with
      | connected c =>
          cases h
          cases result with
          | ok message => exact absurd hends (by simp [handleSocketResult, handleSocketMessage_ends])
          | error error => exact handleSocketError_ends hends
      | _ => cases h
  | channelSpawn spawn uuid delivered =>
      simp only [select] at h
      split at h
      · rename_i hserves
        cases h
        cases state with
        | shuttingDown | shutDown => cases hserves
        | _ => cases hends
      · cases h
  | stateCommand command outcome =>
      simp only [select] at h
      split at h
      · rename_i hserves
        simp only [Bool.and_eq_true] at hserves
        cases h
        cases command with
        | shutdown => rfl
        | connect connect => exact absurd hends (by simp [updateState, connect_ends hserves.1])
        | disconnect tx =>
            cases state with
            | shuttingDown | shutDown => cases hserves.1
            | _ => cases hends
      · cases h
  | channelStateCommand command uuid sent =>
      cases state with
      | connected c =>
          cases h
          exact absurd hends (by simp [updateChannelState_ends])
      | _ => cases h
  | channelSendCommand command uuid sent =>
      cases state with
      | connected c =>
          cases h
          exact absurd hends (by simp [send_ends])
      | _ => cases h
  | joinTimeout index =>
      cases state with
      | connected c =>
          simp only [select] at h
          split at h
          · split at h <;> cases h
            cases hends
          · cases h
      | _ => cases h
  | heartbeat uuid sent =>
      cases state with
      | connected c =>
          simp only [select] at h
          split at h <;> cases h
          exact absurd hends (by simp [heartbeat_ends])
      | _ => cases h
  | sleepElapsed outcome =>
      cases state with
      | waitingToReconnect sleep r =>
          simp only [select] at h
          split at h <;> cases h
          cases outcome with
          | connected => cases hends
          | error | timeout =>
              exact absurd hends (by simp [reconnect, socketConnect, Iteration.ofPanics,
                waitAfterFailure_ends])
      | _ => cases h
  | closed | stop => rfl

/-! ## Shut down while connected -/

def Task.hasExited : Task → Bool
  | .exited _ => true
  | _ => false

theorem Task.hasExited_iff {task : Task} :
    task.hasExited = true ↔ ∃ result, task = .exited result := by
  cases task <;> simp [Task.hasExited]

/-- The task is shutting down, or it has ended by itself. -/
def Task.ends : Task → Bool
  | .exited _ => true
  | task => task.state.any (fun state => !state.serves)

theorem Task.ends_of_state {task : Task} (h : task.state = some state)
    (hserves : state.serves = false) : task.ends = true := by
  have hany : task.state.any (fun state => !state.serves) = true := by simp [h, hserves]
  cases task with
  | exited => rfl
  | _ => exact hany

/-- The listener is told to shut down only while it is connected, and it meets no error that ends
it. -/
def endsConnected (w : World) : Label → Bool
  | .select (.stateCommand .shutdown _) => w.task.isConnected
  | .select (.socketResult (.error error) _) => !error.shutsDown
  | .select .closed => false
  | _ => true

/-- What a step to a listener that shuts down was. -/
inductive EndCase (w : World) (label : Label) (w' : World) : Prop
  | kept : w.task.ends = true → (∀ input, label = .select input → input = .stop) →
      w'.effects = w.effects → EndCase w label w'
  | shutdown {c outcome start} : w.task = .selecting (.connected c) →
      label = .select (.stateCommand .shutdown outcome) → w'.task = .publishing .shuttingDown →
      w'.effects = w.effects ++ start ++ (sendDisconnected c .shutdown).2 → EndCase w label w'

theorem ends_of_outcome (h : (World.outcome iteration).1.ends = true) : iteration.ends = true := by
  cases iteration with
  | next state effects => cases state <;> first | rfl | cases h
  | push | panic => cases h
  | exit => rfl

theorem ends_case (h : (machine strategy).step w label = some w') (hok : endsConnected w label = true)
    (hends : w'.task.ends = true) : EndCase w label w' := by
  cases label with
  | elapse duration =>
      cases h
      exact .kept hends (by simp) rfl
  | pushed | publish =>
      simp only [machine, World.step] at h
      split at h
      · rename_i htask
        cases h
        first | cases hends | exact .kept (by rw [htask]; exact hends) (by simp) rfl
      · cases h
  | select input =>
      obtain ⟨state, iteration, htask, hselect, rfl⟩ := step_select h
      have hinput := select_ends hselect (ends_of_outcome hends)
      cases input with
      | stateCommand command outcome =>
          cases command with
          | shutdown =>
              cases state with
              | connected c =>
                  simp only [select, State.serves, StateCommand.possible, Bool.and_self,
                    ↓reduceIte, Option.some.injEq] at hselect
                  subst hselect
                  refine .shutdown htask rfl rfl
                    (?_ : _ = w.effects ++ [.close] ++ (sendDisconnected c .shutdown).2)
                  simp [record_effects, World.outcome, updateState, shutdown,
                    Iteration.ofPanics, shutdownConnected]
              | _ =>
                  simp [endsConnected, Task.isConnected, Task.connection, htask] at hok
          | _ => cases hinput
      | stop =>
          have hserves : state.serves = false := by
            cases state <;> first | rfl | cases hselect
          refine .kept (by simp [Task.ends, htask, hserves]) (by simp) ?_
          rw [record_effects]
          cases state <;> cases hselect <;> simp [World.outcome]
      | socketResult result sent =>
          cases result with
          | error error =>
              simp only [Input.ends] at hinput
              simp [endsConnected, hinput] at hok
          | ok => cases hinput
      | closed => cases hok
      | _ => cases hinput

/-- The caller of a join or a call whom an effect answers. -/
def Effect.settled? : Effect → Option TxId
  | joinedTx tx _ | replyTx tx _ => some tx
  | _ => none

theorem sendDisconnected_settles {d : Disconnected} {tx : TxId} (h : tx ∈ c.heldTxs) :
    ∃ effect ∈ (sendDisconnected c d).2, effect.settled? = some tx := by
  rcases List.mem_append.mp h with h | h
  · obtain ⟨join, hjoin, rfl⟩ := List.mem_map.mp h
    refine ⟨.joinedTx join.joinedTx (.error .disconnected), ?_, rfl⟩
    exact List.mem_append_left _ (List.mem_append_right _ (List.mem_map_of_mem hjoin))
  · refine ⟨.replyTx tx (.error .socketDisconnected), ?_, rfl⟩
    exact List.mem_append_right _ (List.mem_map_of_mem h)

/-! ## Along a run -/

theorem shutdown_of_run {ls : List Label}
    (h : Run (machine strategy) (fun w l => endsConnected w l = true) World.init ls w)
    (hends : w.task.ends = true) :
    (connectivities w.effects).getLast? = some (.disconnected .shutdown) := by
  refine h.invariant (I := fun w => w.task.ends = true →
    (connectivities w.effects).getLast? = some (.disconnected .shutdown))
    (fun h => by cases h) ?_ hends
  intro w label w' ih hok hstep hends'
  cases ends_case hstep hok hends' with
  | kept hends _ heffects => exact heffects ▸ ih hends
  | shutdown _ _ _ heffects =>
      rw [heffects, connectivities_append, connectivities_sendDisconnected]
      simp

/-- While the listener runs, and the last connectivity change is the shutdown, it shuts down. -/
def LastShutdown (w : World) : Prop :=
  w.task.isRunning = true →
    (connectivities w.effects).getLast? = some (.disconnected .shutdown) → w.task.ends = true

theorem Broadcasts.not_lost {c' : Connected} {changes : List Connectivity} {d : Disconnected}
    (h : Broadcasts state (.connected c') changes) : .disconnected d ∉ changes := by
  cases h with
  | kept | unconnected => exact List.not_mem_nil
  | lost d hne => exact absurd rfl (hne c')
  | connected => simp

theorem ConnectedIteration.shuttingDown (h : ConnectedIteration now fresh c input iteration)
    (hmem : .disconnected .shutdown ∈ connectivities (World.outcome iteration).2) :
    (World.outcome iteration).1.ends = true := by
  have hkept : ∀ c', (World.outcome iteration).1.state = some (.connected c') → False :=
    fun c' hstate => (h.broadcasts hstate).not_lost hmem
  cases h with
  | @lost input start rest state d hr hlost hq =>
      have hlist : connectivities (start ++ (sendDisconnected c d).2 ++ rest) = [.disconnected d] := by
        have hstart : connectivities start = [] :=
          connectivities_eq_nil fun e he => (hq e (List.mem_append_left _ he)).connectivity?
        have hrest : connectivities rest = [] :=
          connectivities_eq_nil fun e he => (hq e (List.mem_append_right _ he)).connectivity?
        simp [hstart, hrest, connectivities_sendDisconnected]
      simp only [World.outcome, hlist, List.mem_singleton, Connectivity.disconnected.injEq] at hmem
      subst hmem hlost
      rfl
  | exit => cases hmem
  | panic => cases hmem
  | _ => exact absurd (hkept _ rfl) id

theorem UnconnectedIteration.not_serves {state' : State}
    (h : UnconnectedIteration now state input iteration) (hstate : state.serves = false)
    (hstate' : (World.outcome iteration).1.state = some state') : state'.serves = false := by
  have fresh : state = .neverConnected ∨ state = .disconnected → False := by
    rintro (rfl | rfl) <;> cases hstate
  cases h with
  | quiet | spawned | disconnect =>
      cases hstate'
      exact hstate
  | connected hs | connectFailed hs => exact absurd (fresh hs) id
  | reconnected hs | reconnectFailed hs =>
      subst hs
      cases hstate
  | shutdown =>
      cases hstate'
      rfl
  | exit | panic => cases hstate'

theorem lastShutdown_of_run {ok : World → Label → Prop} {ls : List Label}
    (h : Run (machine strategy) ok World.init ls w) : LastShutdown w := by
  refine h.invariant ?_ ?_
  · intro _ hlast
    cases hlast
  intro w label w' ih _ hstep hrunning hlast
  cases step_cases hstep with
  | elapse => exact ih hrunning hlast
  | pushed htask =>
      have hends := ih (by rw [htask]; rfl) hlast
      rw [htask] at hends
      cases hends
  | publish htask => simpa [htask, Task.ends] using ih (by rw [htask]; rfl) hlast
  | connected htask hfresh hiter =>
      rw [record_effects, connectivities_append, List.getLast?_append] at hlast
      cases hnew : (connectivities (World.outcome _).2).getLast? with
      | none =>
          rw [hnew] at hlast
          have hends := ih (by rw [htask]; rfl) hlast
          rw [htask] at hends
          cases hends
      | some change =>
          rw [hnew] at hlast
          cases hlast
          exact hiter.shuttingDown (List.mem_of_getLast? hnew)
  | @unconnected state input iteration htask hs hfresh hiter =>
      obtain ⟨state', hstate'⟩ := Option.isSome_iff_exists.mp hrunning
      have hbroadcasts := hiter.broadcasts hs hstate'
      rw [record_effects, connectivities_append] at hlast
      generalize connectivities (World.outcome iteration).2 = changes at hbroadcasts hlast
      cases hbroadcasts with
      | kept | lost => exact absurd rfl (hs _)
      | unconnected =>
          rw [List.append_nil] at hlast
          have hends := ih (by rw [htask]; rfl) hlast
          rw [htask] at hends
          have hserves := hiter.not_serves (by simpa [Task.ends] using hends) hstate'
          exact Task.ends_of_state hstate' hserves
      | connected => simp at hlast

/-- A channel that waits for the socket to connect was spawned before the socket shuts down. -/
def SpawnsServed (w : World) : Prop :=
  ∀ i spawn key rejoin sent,
    w.effects[i]? = some (.spawned spawn key (.waitingForSocketToConnect rejoin) sent) →
    (connectivities (w.effects.take i)).getLast? ≠ some (.disconnected .shutdown)

theorem SpawnsServed.record {before : State} (hlast : LastShutdown w) (h : SpawnsServed w)
    (htask : w.task = .selecting before)
    (he : Entry.Possible ⟨w.now, before, input, (World.outcome iteration).2⟩) :
    SpawnsServed (w.record before input iteration) := by
  intro i spawn key rejoin sent hi
  rcases spawned_record he hi with ⟨hold, htake⟩ | ⟨hchannel, htake⟩
  · rw [htake]
    exact h i spawn key rejoin sent hold
  · rw [htake]
    intro hshutdown
    have hends := hlast (by rw [htask]; rfl) hshutdown
    rw [htask] at hends
    cases before with
    | shuttingDown | shutDown => cases hchannel
    | _ => cases hends

theorem spawnsServed_of_run {ok : World → Label → Prop} {ls : List Label}
    (h : Run (machine strategy) ok World.init ls w) : SpawnsServed w := by
  refine h.invariant_of_run ?_ ?_
  · intro i spawn key rejoin sent hi
    simp [World.effects, World.init] at hi
  intro ls w label w' hrun ih _ hstep
  have hlast := lastShutdown_of_run hrun
  cases step_cases hstep with
  | elapse | pushed | publish => exact ih
  | connected htask hfresh hiter => exact ih.record hlast htask (.connected rfl hiter rfl)
  | unconnected htask hs hfresh hiter => exact ih.record hlast htask (.unconnected hs hiter rfl)

end Socket

end PhoenixChannels
