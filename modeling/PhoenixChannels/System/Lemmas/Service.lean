import PhoenixChannels.System.Lemmas.Freeing
import PhoenixChannels.System.Lemmas.Moments

/-!
# How the calls on a socket are served

A call waits with its command in the queue, or was answered, until the listener stops.
-/

namespace PhoenixChannels

open Machine

/-- The calls with which users connect, disconnect and shut down the socket. -/
def Request.asksSocket : Request → Bool
  | connect _ | disconnect | shutdown => true
  | _ => false

/-! ## State commands -/

namespace Socket

variable {strategy : Option (Nat → Duration)} {now : Instant} {fresh : TxId} {state : State}
variable {w w' : World} {command : StateCommand} {outcome : ConnectOutcome} {iteration : Iteration}

/-- What the listener does with a state command: it answers it, or it shuts down. -/
inductive Serves (effects : List Effect) (task : Task) : StateCommand → Prop
  | connect {connect result} : .connectedTx connect.connectedTx result ∈ effects →
      Serves effects task (.connect connect)
  | disconnect {tx} : .disconnectedTx tx ∈ effects → Serves effects task (.disconnect tx)
  | shutdown : task = .publishing .shuttingDown → Serves effects task .shutdown

theorem serves_connect {connect : Connect} (hserves : state.serves = true) :
    Serves (World.outcome (Iteration.ofPanics
        (Socket.connect strategy now state connect outcome))).2
      (World.outcome (Iteration.ofPanics
        (Socket.connect strategy now state connect outcome))).1 (.connect connect) := by
  cases state with
  | neverConnected | disconnected =>
      cases outcome <;> exact .connect (List.mem_append_right _ (List.mem_singleton.mpr rfl))
  | waitingToReconnect | connected => exact .connect (List.mem_singleton.mpr rfl)
  | shuttingDown | shutDown => cases hserves

theorem serves_disconnect {tx : TxId} : .disconnectedTx tx ∈ (disconnect state tx).2 := by
  cases state <;> simp [disconnect]

theorem shutdown_fst : (shutdown state).1 = .shuttingDown := by
  cases state <;> rfl

theorem select_serves
    (h : select strategy now fresh state (.stateCommand command outcome) = some iteration) :
    Serves (World.outcome iteration).2 (World.outcome iteration).1 command := by
  simp only [select] at h
  split at h
  · rename_i hready
    obtain ⟨hserves, _⟩ := Bool.and_eq_true_iff.mp hready
    cases h
    cases command with
    | connect connect => exact serves_connect hserves
    | disconnect tx => exact .disconnect serves_disconnect
    | shutdown => exact .shutdown (congrArg Task.publishing shutdown_fst)
  · cases h

theorem step_serves (h : (machine strategy).step w (.select (.stateCommand command outcome)) = some w') :
    Serves w'.effects w'.task command := by
  obtain ⟨state, iteration, _, hselect, rfl⟩ := step_select h
  rw [record_effects]
  cases select_serves hselect with
  | connect hmem => exact .connect (List.mem_append_right _ hmem)
  | disconnect hmem => exact .disconnect (List.mem_append_right _ hmem)
  | shutdown htask => exact .shutdown htask

variable (strategy) in
/-- A listener that serves commands can take any of them, and does not suspend itself with it. -/
theorem exists_step_serves (htask : w.task = .selecting state) (hserves : state.serves = true)
    (command : StateCommand) : ∃ w',
      (machine strategy).step w (.select (.stateCommand command .connected)) = some w' ∧
      ∀ connected tx push, w'.task ≠ .pushing connected tx push := by
  have hpossible : command.possible w.now .connected = true := by
    cases command <;> rfl
  have hfresh : w.uuidFresh (.stateCommand command .connected) = true := rfl
  refine ⟨w.record state (.stateCommand command .connected)
    (Iteration.ofPanics (updateState strategy w.now state command .connected)), ?_, ?_⟩
  · simp [machine, World.step, htask, hfresh, select, hserves, hpossible]
  intro connected tx push hpushing
  cases hupdate : updateState strategy w.now state command .connected with
  | none =>
      rw [hupdate] at hpushing
      cases hpushing
  | some next =>
      rw [hupdate] at hpushing
      cases hpushing

variable (strategy) in
/-- A listener that serves no commands any more stops. -/
theorem exists_step_stops (htask : w.task = .selecting state) (hserves : state.serves = false) :
    ∃ w', (machine strategy).step w (.select .stop) = some w' ∧ w'.task.isRunning = false := by
  have hfresh : w.uuidFresh .stop = true := rfl
  refine ⟨w.record state .stop (.exit (.ok ())), ?_, rfl⟩
  cases state with
  | shuttingDown | shutDown => simp [machine, World.step, htask, hfresh, select]
  | _ => cases hserves

/-- A listener that serves no commands any more goes on to its end. -/
theorem stops_of_step {label : Label} (h : (machine strategy).step w label = some w')
    (hstate : w.task.state = some state) (hserves : state.serves = false) :
    w'.task.isRunning = false ∨ w'.task.state = some state := by
  cases label with
  | elapse =>
      cases h
      exact .inr hstate
  | select input =>
      left
      obtain ⟨state', iteration, htask, hselect, rfl⟩ := step_select h
      rw [htask] at hstate
      cases hstate
      cases state with
      | shuttingDown | shutDown => cases input <;> first | (cases hselect; rfl) | cases hselect
      | _ => cases hserves
  | pushed | publish =>
      right
      simp only [machine, World.step] at h
      split at h <;> cases h
      · rename_i htask
        rw [htask] at hstate
        exact hstate

end Socket

namespace System

variable {strategy : Option (Nat → Duration)} {ok : System → Label → Prop} {ls : List Label}
variable {s s' : System} {label : Label} {i : Nat} {op : Operation} {tx : TxId}
variable {command : Socket.StateCommand}

/-! ## Where a call is -/

/-- The command with which a call waits in the queue. -/
def asks (command : Socket.StateCommand) (op : Operation) : Prop :=
  match op.phase with
  | .waiting tx _ => command.tx? = some tx
  | .closing | .joining => command = .shutdown
  | _ => False

/-- A call on the socket is before its command or over, waits with its command in the queue, or was
answered; or the listener has stopped, or is about to. -/
inductive Attended (s : System) (op : Operation) : Prop
  | sending : op.phase = .sending → Attended s op
  | finished : op.phase.isOver = true → Attended s op
  | ended : s.socket.task.isRunning = false → Attended s op
  | queued {c : Socket.StateCommand} : c ∈ s.stateCommandRx → asks c op → Attended s op
  | answered {sender : TxId} {deadline effect result} : op.phase = .waiting sender deadline →
      effect ∈ s.socket.effects → Socket.Effect.result? sender effect = some result → Attended s op
  | stopping {state} : s.socket.task.state = some state → state.serves = false → Attended s op

theorem Attended.of_answer {effect : Socket.Effect} {result : ApiResult}
    (hasks : asks command op) (hne : command ≠ .shutdown) (htx : command.tx? = some tx)
    (hmem : effect ∈ s.socket.effects) (hresult : effect.result? tx = some result) :
    Attended s op := by
  unfold asks at hasks
  split at hasks
  · rename_i sender deadline hphase
    obtain rfl : tx = sender := Option.some.inj (htx.symm.trans hasks)
    exact .answered hphase hmem hresult
  · exact absurd hasks hne
  · exact absurd hasks hne
  · exact hasks.elim

/-- A command that was taken is answered. -/
theorem Attended.taken {outcome : Socket.ConnectOutcome} (hasks : asks command op)
    (hstep : (Socket.machine strategy).step s.socket (.select (.stateCommand command outcome)) =
      some s'.socket) : Attended s' op := by
  cases Socket.step_serves hstep with
  | connect hmem =>
      exact .of_answer hasks (by simp) rfl hmem (by simp [Socket.Effect.result?]; rfl)
  | disconnect hmem =>
      exact .of_answer hasks (by simp) rfl hmem (by simp [Socket.Effect.result?]; rfl)
  | shutdown htask => exact .stopping (by rw [htask]; rfl) rfl

/-- A command stays in the queue until the listener takes it. -/
theorem SystemStep.command_cases (h : SystemStep strategy s label s')
    (hrunning : s'.socket.task.isRunning = true) (hmem : command ∈ s.stateCommandRx) :
    command ∈ s'.stateCommandRx ∨ ∃ outcome, (Socket.machine strategy).step s.socket
      (.select (.stateCommand command outcome)) = some s'.socket := by
  cases h with
  | user _ h =>
      cases h with
      | socketCommand => exact .inl (List.mem_append_left _ hmem)
      | _ => exact .inl hmem
  | @select event input taken socket hreceive hselect =>
      rw [setSocket_socket] at hrunning ⊢
      rw [setSocket_of_running hrunning]
      cases hreceive with
      | @stateCommand outcome command' rest hrx =>
          rw [hrx] at hmem
          rcases List.mem_cons.mp hmem with rfl | hmem
          · exact .inr ⟨outcome, hselect⟩
          · exact .inl hmem
      | _ => exact .inl hmem
  | @poll c w w' read => cases read <;> exact .inl hmem
  | _ => exact .inl hmem

/-- A call that goes on waiting is attended to as before. -/
theorem Attended.step (h : Attended s op) (hstep : SystemStep strategy s label s') :
    Attended s' op := by
  cases hrunning : s'.socket.task.isRunning with
  | false => exact .ended hrunning
  | true =>
      cases h with
      | sending hphase => exact .sending hphase
      | finished hover => exact .finished hover
      | ended hended =>
          rw [hstep.running hrunning] at hended
          cases hended
      | queued hmem hasks =>
          rcases hstep.command_cases hrunning hmem with hmem | ⟨outcome, htaken⟩
          · exact .queued hmem hasks
          · exact .taken hasks htaken
      | answered hphase hmem hresult =>
          exact .answered hphase (hstep.effects.subset hmem) hresult
      | stopping hstate hserves =>
          have stops : ∀ l, (Socket.machine strategy).step s.socket l = some s'.socket →
              Attended s' op := by
            intro l hl
            rcases Socket.stops_of_step hl hstate hserves with hended | hstate'
            · exact .ended hended
            · exact .stopping hstate' hserves
          cases hstep.socket_cases with
          | kept heq => exact .stopping (heq ▸ hstate) hserves
          | stepped _ hsocket => exact stops _ hsocket
          | selected _ _ hsocket => exact stops _ hsocket

/-- A call queues its command. -/
theorem sendToSocket_attended (hasks : op.request.asksSocket = true)
    (h : s.sendToSocket i op = some s') : ∃ phase,
      s'.operations = s.operations.set i { op with phase } ∧ Attended s' { op with phase } := by
  have queued : ∀ (t : System) command phase, t.stateCommandRx = s.stateCommandRx ++ [command] →
      asks command { op with phase } → Attended (t.setPhase i op phase) { op with phase } := by
    intro t command phase hrx hasks
    refine .queued (c := command) ?_ hasks
    show command ∈ t.stateCommandRx
    simp [hrx]
  unfold sendToSocket at h
  simp only [] at h
  split at h
  · split at h <;> rename_i hrequest
    · split at h <;> cases h
      exact ⟨_, rfl, queued _ _ _ rfl rfl⟩
    · split at h <;> cases h
      exact ⟨_, rfl, queued _ _ _ rfl rfl⟩
    · split at h <;> cases h
      exact ⟨_, rfl, queued _ _ _ rfl rfl⟩
    · rw [hrequest] at hasks
      cases hasks
    · cases h
  · rename_i hended
    have hended : s.socket.task.isRunning = false := by simpa using hended
    cases h
    exact ⟨_, rfl, .ended hended⟩

/-- The sender of a call that is attended to was not dropped while the listener runs. -/
theorem Attended.not_closed (h : Attended s op) {deadline : Option Instant}
    (hphase : op.phase = .waiting tx deadline) (hclosed : s.result tx = .closed) :
    s.socket.task.isRunning = false ∨
      ∃ state, s.socket.task.state = some state ∧ state.serves = false := by
  obtain ⟨hheld, hvisible, _⟩ := result_eq_closed.mp hclosed
  cases h with
  | sending hsending => cases hphase.symm.trans hsending
  | finished hover =>
      rw [hphase] at hover
      cases hover
  | ended hended => exact .inl hended
  | @queued c hmem hasks =>
      have htx : c.tx? = some tx := by
        simp only [asks, hphase] at hasks
        exact hasks
      refine absurd (mem_heldTxs.mpr (.inl ?_)) hheld
      simp only [queuedTxs, List.mem_append, List.mem_filterMap]
      exact .inl (.inl (.inl ⟨c, hmem, htx⟩))
  | @answered sender deadline' effect result hphase' hmem hresult =>
      cases hphase.symm.trans hphase'
      rw [← List.take_append_drop s.delivered s.socket.effects] at hmem
      rcases List.mem_append.mp hmem with hmem | hmem
      · rw [hvisible _ hmem] at hresult
        cases hresult
      · exact absurd (mem_heldTxs.mpr (.inr (.inr (.inl
          ⟨effect, hmem, Socket.Effect.tx?_of_result? hresult⟩)))) hheld
  | stopping hstate hserves => exact .inr ⟨_, hstate, hserves⟩

theorem afterShutdown_isOver {request : Request} {result : Except Panic (Except ApiError Unit)} :
    (afterShutdown request result).isOver = true := by
  unfold afterShutdown
  split
  · split <;> rfl
  · rfl
  · rfl

theorem channel?_of_asksSocket {request : Request} (h : request.asksSocket = true) :
    request.channel? = none := by
  cases request <;> first | rfl | cases h

/-- A call that goes on is attended to again. -/
theorem Attended.next (h : Attended s op) (hs : (machine strategy).step s label = some s')
    (hasks : op.request.asksSocket = true) (hop : s.operations[i]? = some op) {phase : Phase}
    (hphase : PhaseStep s s' i op label phase)
    (hop' : s'.operations[i]? = some { op with phase }) : Attended s' { op with phase } := by
  have hstep := step_cases hs
  -- a call that begins finds the queue or the end of the listener
  have begins : label = .advance i → op.phase = .sending → Attended s' { op with phase } := by
    rintro rfl hsending
    simp only [machine, System.step, advanceStep, hop, hsending,
      channel?_of_asksSocket hasks] at hs
    obtain ⟨phase', hset, hattended⟩ := sendToSocket_attended hasks hs
    rw [hset, List.getElem?_set_self (List.getElem?_eq_some_iff.mp hop).1] at hop'
    exact Option.some.inj hop' ▸ hattended
  cases hphase with
  | sent hsending | cast hsending | shutdown hsending | ended hsending => exact begins rfl hsending
  | answered | alreadyJoined | expired => exact .finished rfl
  | joined => exact .finished afterShutdown_isOver
  | dropped hwaiting hclosed =>
      rcases h.not_closed hwaiting hclosed with hended | ⟨state, hstate, hserves⟩
      · exact (Attended.ended hended).step hstep
      · exact (Attended.stopping hstate hserves).step hstep
  | taken hclosing =>
      cases h with
      | sending hold => cases hclosing.symm.trans hold
      | finished hover =>
          rw [hclosing] at hover
          cases hover
      | ended hended => exact (Attended.ended hended).step hstep
      | answered hold => cases hclosing.symm.trans hold
      | stopping hstate hserves => exact (Attended.stopping hstate hserves).step hstep
      | @queued c hmem hshutdown =>
          simp only [asks, hclosing] at hshutdown
          have hasks : asks c { op with phase := .joining } := hshutdown
          exact (Attended.queued hmem hasks).step hstep

theorem attended_of_run (h : Run (machine strategy) ok init ls s) (hop : s.operations[i]? = some op)
    (hasks : op.request.asksSocket = true) : Attended s op := by
  refine h.invariant (I := fun s => ∀ i op, s.operations[i]? = some op →
    op.request.asksSocket = true → Attended s op) ?_ ?_ i op hop hasks
  · intro i op hop
    cases hop
  intro s label s' ih _ hs i op' hop' hasks
  cases callChange_of_step hs hop' with
  | kept hop => exact (ih i op' hop hasks).step (step_cases hs)
  | begun hsending => exact .sending hsending
  | @next op hop hrequest =>
      rw [hrequest] at hasks
      have hbefore := ih i op hop hasks
      rcases (operations_cases hs).at hop with ⟨hkept, _⟩ | ⟨phase, hstepped, hphase⟩
      · obtain rfl := Option.some.inj (hop'.symm.trans hkept)
        exact hbefore.step (step_cases hs)
      · obtain rfl := Option.some.inj (hop'.symm.trans hstepped)
        exact hbefore.next hs hasks hop hphase hstepped

end System

end PhoenixChannels
