import PhoenixChannels.System.Lemmas.Service

/-!
# Serving the calls on a socket

The steps of the listeners by which a call on the socket comes to its end when nothing else happens.
-/

namespace PhoenixChannels

open Machine

/-- A sender that a channel listener holds is one that it uses. -/
theorem Channel.State.exists_use_of_held {state : State} {tx : TxId} (h : tx ∈ state.heldTxs) :
    ∃ use, (tx, use) ∈ state.uses := by
  cases state with
  | joining j => exact ⟨.join, by simp_all [State.heldTxs, State.uses, Joining.uses]⟩
  | leaving l => exact ⟨.leave, by simp_all [State.heldTxs, State.uses, Leaving.uses]⟩
  | _ => cases h

theorem Channel.Task.exists_use_of_held {task : Task} {tx : TxId} (h : tx ∈ task.heldTxs) :
    ∃ use, (tx, use) ∈ task.uses := by
  cases task with
  | selecting state | publishing state => exact State.exists_use_of_held h
  | exited | panicked => cases h
  | calling call =>
      cases call with
      | join state createdAt timeout txs =>
          rcases List.mem_append.mp h with h | h
          · obtain ⟨use, huse⟩ := State.exists_use_of_held h
            exact ⟨use, List.mem_append_left _ huse⟩
          · exact ⟨.join, by simp [Task.uses, SocketCall.uses, h]⟩
      | leaveJoining joining leftTx =>
          simp only [Task.heldTxs, SocketCall.heldTxs, List.mem_append, List.mem_singleton] at h
          rcases h with h | rfl
          · exact ⟨.join, by simp [Task.uses, SocketCall.uses, Joining.uses, h]⟩
          · exact ⟨.leave, by simp [Task.uses, SocketCall.uses]⟩
      | leaveJoined joined leftTx =>
          exact ⟨.leave, by simpa [Task.heldTxs, SocketCall.heldTxs, Task.uses, SocketCall.uses] using h⟩
      | cast => cases h
      | call joined eventPayload replyTx =>
          exact ⟨.call eventPayload,
            by simpa [Task.heldTxs, SocketCall.heldTxs, Task.uses, SocketCall.uses] using h⟩

theorem Channel.World.exists_use_of_held {w : World} {tx : TxId} (h : tx ∈ w.heldTxs) :
    ∃ use, (tx, use) ∈ w.uses := by
  simp only [heldTxs, List.mem_append, List.mem_map, List.mem_filterMap] at h
  rcases h with (⟨command, hmem, rfl⟩ | ⟨command, hmem, htx⟩) | h
  · refine ⟨command.use.2, mem_uses.mpr (.inl (List.mem_append_left _ (List.mem_map.mpr ?_)))⟩
    exact ⟨command, hmem, by cases command <;> rfl⟩
  · refine ⟨command.use.2, mem_uses.mpr (.inl (List.mem_append_right _ (List.mem_map.mpr ?_)))⟩
    refine ⟨command, hmem, ?_⟩
    cases command <;> cases htx
    rfl
  · obtain ⟨use, huse⟩ := Task.exists_use_of_held h
    exact ⟨use, mem_uses.mpr (.inr (.inl huse))⟩

/-- The steps that serve the call `i`: it goes on itself, the socket listener takes state commands
and connects, and the channel listeners go on. Nothing arrives from the server, no time passes, and
no user does anything else. -/
def System.Label.serves (i : Nat) : System.Label → Bool
  | .advance j => j = i
  | .select (.stateCommand .connected) | .select .stop => true
  | .deliver | .pushed | .publish => true
  | .poll _ | .forward _ | .publishChannel _ => true
  | _ => false

/-- How many steps a call has to take when its listener has ended. -/
def Phase.left : Phase → Nat
  | .sending | .waiting _ _ => 3
  | .closing => 2
  | .joining => 1
  | .returned _ | .panicked _ => 0

theorem Phase.left_of_isOver {phase : Phase} (h : phase.isOver = true) : phase.left = 0 := by
  cases phase <;> first | rfl | cases h

namespace System

variable {strategy : Option (Nat → Duration)} {ls : List Label}
variable {s s' : System} {label : Label} {i : Nat} {op : Operation} {tx : TxId} {c : JoinReference}

/-! ## A listener that has ended -/

theorem held_of_pending (h : s.result tx = .pending) : tx ∈ s.heldTxs := by
  unfold result oneshot at h
  split at h
  · cases h
  · split at h
    · assumption
    · cases h

/-- When the listener has ended, a call on the socket waits for nothing. -/
theorem not_pending_of_ended (hrun : Run (machine strategy) Free init ls s)
    (hended : s.socket.task.isRunning = false) (hop : s.operations[i]? = some op)
    (hasks : op.request.asksSocket = true) {deadline : Option Instant}
    (hphase : op.phase = .waiting tx deadline) : s.result tx ≠ .pending := by
  intro hpending
  have hnone : s.queuedTxs ++ s.socket.heldTxs = [] :=
    socket_txs_of_run hrun (by simpa [listenerEnded] using hended)
  obtain ⟨hqueued, hheld⟩ := List.append_eq_nil_iff.mp hnone
  have hundelivered : s.undelivered = [] := by
    have hdelivered := delivered_of_run hrun (by
      intro state htask
      rw [htask] at hended
      cases hended)
    simp [undelivered, hdelivered]
  rcases mem_heldTxs.mp (held_of_pending hpending) with h | h | ⟨effect, h, _⟩ | ⟨c, w, hw, h⟩
  · rw [hqueued] at h
    cases h
  · rw [hheld] at h
    cases h
  · rw [hundelivered] at h
    cases h
  · -- a channel listener holds no senders of calls on the socket
    obtain ⟨use, huse⟩ := Channel.World.exists_use_of_held h
    obtain ⟨purpose, hchannel, hresult⟩ := suits_of_run hrun (.channel hw huse) (.result hop hphase)
    cases hresult
    revert hasks
    generalize op.request = request at hchannel
    cases hchannel <;> simp [Request.asksSocket]

/-- The call is over. -/
def Finished (i : Nat) (s : System) : Prop :=
  ∃ op, s.operations[i]? = some op ∧ op.phase.isOver = true

/-- When the listener has ended, a call on the socket can go on. -/
theorem exists_advance_ended (hrun : Run (machine strategy) Free init ls s)
    (hended : s.socket.task.isRunning = false) (hop : s.operations[i]? = some op)
    (hasks : op.request.asksSocket = true) (hover : op.phase.isOver = false) :
    ∃ s' phase, (machine strategy).step s (.advance i) = some s' ∧ s'.socket = s.socket ∧
      s'.operations[i]? = some { op with phase } ∧ phase.left < op.phase.left := by
  have hchannel := channel?_of_asksSocket hasks
  have hi := (List.getElem?_eq_some_iff.mp hop).1
  -- the phase changes, and with it at most the join handle
  have goes : ∀ t phase, (machine strategy).step s (.advance i) = some (setPhase t i op phase) →
      t.socket = s.socket → t.operations = s.operations → phase.left < op.phase.left →
      ∃ s' phase, (machine strategy).step s (.advance i) = some s' ∧ s'.socket = s.socket ∧
        s'.operations[i]? = some { op with phase } ∧ phase.left < op.phase.left := by
    intro t phase hs hsocket hoperations hleft
    refine ⟨_, phase, hs, hsocket, ?_, hleft⟩
    simp [setPhase, hoperations, hi]
  obtain ⟨old, hphase⟩ : ∃ old, op.phase = old := ⟨_, rfl⟩
  cases old with
  | sending =>
      apply goes s .closing _ rfl rfl (by simp [hphase, Phase.left])
      simp [machine, step, advanceStep, hop, hphase, hchannel, sendToSocket, hended]
  | waiting tx deadline =>
      cases hresult : s.result tx with
      | pending => exact absurd hresult (not_pending_of_ended hrun hended hop hasks hphase)
      | sent result =>
          apply goes s (.returned result) _ rfl rfl (by simp [hphase, Phase.left])
          simp [machine, step, advanceStep, hop, hphase, hresult]
      | closed =>
          apply goes s .closing _ rfl rfl (by simp [hphase, Phase.left])
          simp [machine, step, advanceStep, hop, hphase, hresult]
  | closing =>
      cases hhandle : s.joinHandle with
      | true =>
          apply goes { s with joinHandle := false } .joining _ rfl rfl
            (by simp [hphase, Phase.left])
          simp [machine, step, advanceStep, hop, hphase, takeHandle, hchannel, hhandle]
      | false =>
          apply goes s (.returned (.error (.socketShutdown .alreadyJoined))) _ rfl rfl
            (by simp [hphase, Phase.left])
          simp [machine, step, advanceStep, hop, hphase, takeHandle, hchannel, hhandle]
  | joining =>
      have hresult : ∃ result, s.taskResult op = some result := by
        cases htask : s.socket.task with
        | exited | panicked => simp [taskResult, hchannel, htask]
        | selecting | pushing | publishing =>
            rw [htask] at hended
            cases hended
      obtain ⟨result, hresult⟩ := hresult
      apply goes s (afterShutdown op.request result) _ rfl rfl
      · rw [Phase.left_of_isOver afterShutdown_isOver, hphase]
        exact Nat.zero_lt_one
      · simp [machine, step, advanceStep, hop, hphase, hresult]
  | returned | panicked =>
      rw [hphase] at hover
      cases hover

/-- When the listener has ended, a call on the socket comes to its end by its own steps. -/
theorem finishes_ended (hrun : Run (machine strategy) Free init ls s)
    (hended : s.socket.task.isRunning = false) (hop : s.operations[i]? = some op)
    (hasks : op.request.asksSocket = true) :
    ∃ ks t, Run (machine strategy) (fun _ l => l.serves i = true) s ks t ∧ t.Finished i := by
  let left (s : System) : Nat := ((s.operations[i]?).map fun op => op.phase.left).getD 0
  refine exists_run_of_rank (I := fun s => (∃ ls, Run (machine strategy) Free init ls s) ∧
    s.socket.task.isRunning = false ∧
      ∃ op, s.operations[i]? = some op ∧ op.request.asksSocket = true) left ?_
    ⟨⟨ls, hrun⟩, hended, op, hop, hasks⟩
  rintro s ⟨⟨ls, hrun⟩, hended, op, hop, hasks⟩
  cases hover : op.phase.isOver with
  | true => exact .inl ⟨op, hop, hover⟩
  | false =>
      obtain ⟨s', phase, hs, hsocket, hop', hlt⟩ :=
        exists_advance_ended hrun hended hop hasks hover
      refine .inr ⟨.advance i, s', by simp [Label.serves], hs, .inr ⟨⟨⟨_, hrun.snoc trivial hs⟩,
        by rw [hsocket, hended], _, hop', hasks⟩, ?_⟩⟩
      simpa [left, hop, hop'] using hlt

/-! ## A listener that runs -/

theorem SystemStep.socket_of_listener (h : SystemStep strategy s label s')
    (hlabel : label.ofListener c = true) : s'.socket = s.socket := by
  cases h with
  | user huser => cases label <;> simp_all [Label.ofListener, Label.isUser]
  | poll => simp [setChannel]
  | forwardState | forwardSend | fail | publishChannel => rfl
  | _ => cases hlabel

theorem Label.serves_of_listener (h : label.ofListener c = true) : label.serves i = true := by
  cases label <;> first | rfl | cases h

/-- A push is handed over unless the listener whose queue is full holds it. -/
theorem exists_pushed {connected : Socket.Connected} {push : Push}
    (htask : s.socket.task = .pushing connected tx push) (hfree : ∀ c w, ¬ WaitsFor s c tx w) :
    ∃ s', (machine strategy).step s .pushed = some s' ∧
      s'.socket.task = .publishing (.connected connected) := by
  by_cases halive : s.pushRxAlive tx = true
  · obtain ⟨w, hw, hholds⟩ := List.any_eq_true.mp halive
    obtain ⟨c, hc⟩ := Dict.mem_values.mp hw
    have hroom : (s.pushRx tx).length < pushCapacity := by
      by_contra hfull
      exact hfree c w ⟨hc, ⟨connected, push, htask⟩, hholds, Nat.le_of_not_lt hfull⟩
    simp [machine, step, pushedStep, htask, halive, hroom, Socket.World.step]
  · simp [machine, step, pushedStep, htask, halive, Socket.World.step]

/-- The socket listener goes on from a push once the listener that it waits for has freed its queue,
unless that one waits for it in its turn. -/
theorem exists_unsuspended (hrun : Run (machine strategy) Free init ls s) :
    ∃ ks t, Run (machine strategy) (fun _ l => l.serves i = true) s ks t ∧
      (t.socket = s.socket ∧ ¬ NoCyclicWait t ∨
        ∀ connected tx push, t.socket.task ≠ .pushing connected tx push) := by
  by_cases hpushing : ∃ connected tx push, s.socket.task = .pushing connected tx push
  · obtain ⟨connected, tx, push, htask⟩ := hpushing
    have pushes : ∀ {ks t}, Run (machine strategy) (fun _ l => l.serves i = true) s ks t →
        t.socket = s.socket → (∀ c w, ¬ WaitsFor t c tx w) →
        ∃ ks t, Run (machine strategy) (fun _ l => l.serves i = true) s ks t ∧
          (t.socket = s.socket ∧ ¬ NoCyclicWait t ∨
            ∀ connected tx push, t.socket.task ≠ .pushing connected tx push) := by
      intro ks t hks hsocket hfree
      obtain ⟨u, hu, hpublishing⟩ := exists_pushed (by rw [hsocket, htask]) hfree
      exact ⟨_, u, hks.snoc rfl hu, .inr (by simp [hpublishing])⟩
    by_cases hwaits : ∃ c w, WaitsFor s c tx w
    · obtain ⟨c, w, hwaits⟩ := hwaits
      obtain ⟨ks, t, hks, hfreed⟩ := hwaits.freed hrun
      have hsocket : t.socket = s.socket :=
        hks.invariant (I := fun t => t.socket = s.socket) rfl fun _ _ _ ih hl hs =>
          ((step_cases hs).socket_of_listener hl).trans ih
      have hserves : Run (machine strategy) (fun _ l => l.serves i = true) s ks t :=
        hks.mono fun _ _ hl => Label.serves_of_listener hl
      rcases hfreed with hcyclic | hfree
      · exact ⟨ks, t, hserves, .inl ⟨hsocket, hcyclic⟩⟩
      · refine pushes hserves hsocket fun c' w' hwaits' => ?_
        -- only the listener that the push is for can hold its queue
        have hkey := hwaits.key hrun htask
        have hkey' := hwaits'.key (hrun.trans hks.free) (by rw [hsocket, htask])
        obtain ⟨_, rfl⟩ := Socket.JoinKey.mk.inj (hkey.symm.trans hkey')
        exact hfree w' hwaits'
    · exact pushes .nil rfl fun c w h => hwaits ⟨c, w, h⟩
  · exact ⟨[], s, .nil, .inr fun connected tx push h => hpushing ⟨connected, tx, push, h⟩⟩

variable (strategy) in
theorem exists_deliver (h : s.delivered < s.socket.effects.length) :
    ∃ s', (machine strategy).step s .deliver = some s' ∧ s'.socket = s.socket ∧
      s'.operations = s.operations ∧ s'.stateCommandRx = s.stateCommandRx ∧
        s'.delivered = s.delivered + 1 := by
  simp only [machine, step, deliver, List.getElem?_eq_getElem h]
  split
  · exact ⟨_, rfl, rfl, rfl, rfl, rfl⟩
  · exact ⟨_, rfl, rfl, rfl, rfl, rfl⟩
  · simp_all

/-- The socket listener selects, or it has ended. -/
def Selects (s : System) : Prop :=
  s.socket.task.isRunning = false ∨ ∃ state, s.socket.task = .selecting state

/-- The socket listener comes to its next `select!`. -/
theorem exists_selects (hrun : Run (machine strategy) Free init ls s)
    (htask : ∀ connected tx push, s.socket.task ≠ .pushing connected tx push) :
    ∃ ks t, Run (machine strategy) (fun _ l => l.serves i = true) s ks t ∧ t.Selects ∧
      t.operations = s.operations ∧ t.stateCommandRx = s.stateCommandRx := by
  refine exists_run_of_rank (I := fun t => (∃ ls, Run (machine strategy) Free init ls t) ∧
    (∀ connected tx push, t.socket.task ≠ .pushing connected tx push) ∧
      t.operations = s.operations ∧ t.stateCommandRx = s.stateCommandRx)
    (fun t => t.socket.effects.length - t.delivered) ?_ ⟨⟨ls, hrun⟩, htask, rfl, rfl⟩
  rintro t ⟨⟨ks, ht⟩, htask, hoperations, hrx⟩
  cases hsocket : t.socket.task with
  | selecting state => exact .inl ⟨.inr ⟨state, hsocket⟩, hoperations, hrx⟩
  | exited | panicked => exact .inl ⟨.inl (by rw [hsocket]; rfl), hoperations, hrx⟩
  | pushing connected tx push => exact absurd hsocket (htask connected tx push)
  | publishing state =>
      right
      rcases Nat.lt_or_eq_of_le (delivered_le ht) with hlt | heq
      · obtain ⟨t', hs, hkept, hoperations', hrx', hdelivered⟩ :=
          exists_deliver strategy hlt
        refine ⟨.deliver, t', rfl, hs, .inr ⟨⟨⟨_, ht.snoc trivial hs⟩, by rwa [hkept],
          hoperations'.trans hoperations, hrx'.trans hrx⟩, ?_⟩⟩
        rw [hkept, hdelivered]
        omega
      · let w : Socket.World := { t.socket with task := .selecting state, status := state.status }
        have hs : (machine strategy).step t .publish = some { t with socket := w } := by
          simp [machine, step, publishStep, heq, Socket.World.step, hsocket, w]
        exact ⟨.publish, _, rfl, hs, .inl ⟨.inr ⟨state, rfl⟩, hoperations, hrx⟩⟩

/-- The socket listener has taken all state commands, or it has ended. -/
def Idle (s : System) : Prop :=
  s.socket.task.isRunning = false ∨
    ∃ state, s.socket.task = .selecting state ∧ state.serves = true ∧ s.stateCommandRx = []

theorem setSocket_stateCommandRx_length {w : Socket.World} :
    (s.setSocket w).stateCommandRx.length ≤ s.stateCommandRx.length := by
  unfold setSocket
  split <;> simp

/-- The socket listener takes all state commands. -/
theorem exists_idle (hrun : Run (machine strategy) Free init ls s)
    (htask : ∀ connected tx push, s.socket.task ≠ .pushing connected tx push) :
    ∃ ks t, Run (machine strategy) (fun _ l => l.serves i = true) s ks t ∧ t.Idle ∧
      t.operations = s.operations := by
  refine exists_run_of_runs (I := fun t => (∃ ls, Run (machine strategy) Free init ls t) ∧
    (∀ connected tx push, t.socket.task ≠ .pushing connected tx push) ∧
      t.operations = s.operations)
    (fun t => t.stateCommandRx.length) ?_ ⟨⟨ls, hrun⟩, htask, rfl⟩
  rintro t ⟨⟨ks, ht⟩, htask, hoperations⟩
  obtain ⟨us, u, hu, hselects, hkept, hrx⟩ := exists_selects (i := i) ht htask
  right
  rcases hselects with hended | ⟨state, hstate⟩
  · exact ⟨us, u, hu, .inl ⟨.inl hended, hkept.trans hoperations⟩⟩
  cases hserves : state.serves with
  | false =>
      obtain ⟨v, hv, hended⟩ := Socket.exists_step_stops strategy hstate hserves
      have hs : (machine strategy).step u (.select .stop) = some (u.setSocket v) := by
        have hv : Socket.World.step strategy u.socket (.select .stop) = some v := hv
        simp [machine, step, selectStep, receive, hv]
      refine ⟨_, _, hu.snoc rfl hs, .inl ⟨.inl (by simpa using hended), ?_⟩⟩
      simpa using hkept.trans hoperations
  | true =>
      cases hqueue : u.stateCommandRx with
      | nil => exact ⟨us, u, hu, .inl ⟨.inr ⟨state, hstate, hserves, hqueue⟩, hkept.trans hoperations⟩⟩
      | cons command rest =>
          obtain ⟨v, hv, hpushing⟩ :=
            Socket.exists_step_serves strategy hstate hserves command
          have hs : (machine strategy).step u (.select (.stateCommand .connected)) =
              some (setSocket { u with stateCommandRx := rest } v) := by
            have hv : Socket.World.step strategy u.socket
              (.select (.stateCommand command .connected)) = some v := hv
            simp [machine, step, selectStep, receive, hqueue, hv]
          refine ⟨_, _, hu.snoc rfl hs, .inr ⟨⟨⟨_, (ht.trans hu.free).snoc trivial hs⟩, ?_, ?_⟩, ?_⟩⟩
          · simpa using hpushing
          · simpa using hkept.trans hoperations
          · have hle := setSocket_stateCommandRx_length
              (s := { u with stateCommandRx := rest }) (w := v)
            rw [← hrx, hqueue]
            exact Nat.lt_succ_of_le hle

/-! ## A call comes to its end -/

theorem sent_of_visible {effect : Socket.Effect} {result : ApiResult} (hmem : effect ∈ s.visible)
    (hresult : effect.result? tx = some result) : ∃ result, s.result tx = .sent result := by
  unfold System.result oneshot
  split
  · exact ⟨_, rfl⟩
  · rename_i hnone
    simp only [Option.or_eq_none_iff, List.findSome?_eq_none_iff] at hnone
    rw [hnone.1 _ hmem] at hresult
    cases hresult

/-- A call finds room in the queue. -/
theorem sendToSocket_queues (hrunning : s.socket.task.isRunning = true)
    (hroom : s.stateCommandRx.length < socketCapacity) (hasks : op.request.asksSocket = true) :
    ∃ s' phase, s.sendToSocket i op = some s' ∧ s'.socket = s.socket ∧
      s'.operations = s.operations.set i { op with phase } ∧ phase ≠ .sending := by
  obtain ⟨request, createdAt, phase⟩ := op
  unfold sendToSocket
  simp only [if_pos hrunning, if_pos hroom]
  cases request with
  | connect | disconnect | shutdown => exact ⟨_, _, rfl, rfl, rfl, by simp⟩
  | _ => cases hasks

variable (strategy) in
theorem exists_queued (hrunning : s.socket.task.isRunning = true) (hrx : s.stateCommandRx = [])
    (hop : s.operations[i]? = some op) (hasks : op.request.asksSocket = true)
    (hphase : op.phase = .sending) :
    ∃ s' phase, (machine strategy).step s (.advance i) = some s' ∧ s'.socket = s.socket ∧
      s'.operations[i]? = some { op with phase } ∧ phase ≠ .sending := by
  obtain ⟨s', phase, hs, hsocket, hoperations, hne⟩ :=
    sendToSocket_queues (i := i) hrunning (by simp [hrx, socketCapacity]) hasks
  refine ⟨s', phase, ?_, hsocket, ?_, hne⟩
  · simpa [machine, step, advanceStep, hop, hphase, channel?_of_asksSocket hasks] using hs
  · rw [hoperations, List.getElem?_set_self (List.getElem?_eq_some_iff.mp hop).1]

theorem finishes_idle (hrun : Run (machine strategy) Free init ls s) (hidle : s.Idle)
    (hop : s.operations[i]? = some op) (hasks : op.request.asksSocket = true)
    (hsent : op.phase ≠ .sending) :
    ∃ ks t, Run (machine strategy) (fun _ l => l.serves i = true) s ks t ∧ t.Finished i := by
  rcases hidle with hended | ⟨state, htask, hserves, hrx⟩
  · exact finishes_ended hrun hended hop hasks
  have hrunning : s.socket.task.isRunning = true := by rw [htask]; rfl
  cases attended_of_run hrun hop hasks with
  | sending hphase => exact absurd hphase hsent
  | finished hover => exact ⟨[], s, .nil, op, hop, hover⟩
  | ended hended =>
      rw [hrunning] at hended
      cases hended
  | queued hmem =>
      rw [hrx] at hmem
      cases hmem
  | answered hphase hmem hresult =>
      have hvisible : s.visible = s.socket.effects := by
        rw [visible, delivered_of_run hrun (by simp [htask]), List.take_length]
      obtain ⟨result, hsent⟩ := sent_of_visible (hvisible ▸ hmem) hresult
      have hs : (machine strategy).step s (.advance i) =
          some (s.setPhase i op (.returned result)) := by
        simp [machine, step, advanceStep, hop, hphase, hsent]
      refine ⟨_, _, .single (by simp [Label.serves]) hs, { op with phase := .returned result }, ?_, rfl⟩
      simp [setPhase, (List.getElem?_eq_some_iff.mp hop).1]
  | stopping hstate hstops =>
      rw [htask] at hstate
      cases hstate
      rw [hserves] at hstops
      cases hstops

/-- A call on the socket comes to its end when the listener is not suspended. -/
theorem finishes_unsuspended (hrun : Run (machine strategy) Free init ls s)
    (htask : ∀ connected tx push, s.socket.task ≠ .pushing connected tx push)
    (hop : s.operations[i]? = some op) (hasks : op.request.asksSocket = true) :
    ∃ ks t, Run (machine strategy) (fun _ l => l.serves i = true) s ks t ∧ t.Finished i := by
  obtain ⟨ks, t, hks, hidle, hoperations⟩ := exists_idle (i := i) hrun htask
  rw [← hoperations] at hop
  have ht := hrun.trans hks.free
  by_cases hphase : op.phase = .sending
  · rcases hidle with hended | ⟨state, hstate, _, hrx⟩
    · obtain ⟨us, u, hu, hfinished⟩ := finishes_ended ht hended hop hasks
      exact ⟨_, u, hks.trans hu, hfinished⟩
    -- the command is queued now, and taken in turn
    obtain ⟨t', phase, hs, hsocket, hop', hsent⟩ :=
      exists_queued strategy (by rw [hstate]; rfl) hrx hop hasks hphase
    have ht' := ht.snoc trivial hs
    obtain ⟨us, u, hus, hidle, hoperations⟩ :=
      exists_idle (i := i) ht' (by simp [hsocket, hstate])
    rw [← hoperations] at hop'
    obtain ⟨vs, v, hvs, hfinished⟩ := finishes_idle (ht'.trans hus.free) hidle hop' hasks hsent
    have hadvance : (Label.advance i).serves i = true := by simp [Label.serves]
    exact ⟨_, v, ((hks.snoc hadvance hs).trans hus).trans hvs, hfinished⟩
  · obtain ⟨us, u, hu, hfinished⟩ := finishes_idle ht hidle hop hasks hphase
    exact ⟨_, u, hks.trans hu, hfinished⟩

end System

end PhoenixChannels
