import PhoenixChannels.System.Lemmas.Oneshots

/-!
# Calls on a listener that has ended

A call whose command finds its queue closed, or whose oneshot channel is dropped, takes the join
handle of its listener, and returns the error with which the listener has ended. It can take each of
these steps at once, whatever the rest of the client does, as long as there is such an error.
-/

namespace PhoenixChannels

/-- The task has ended with an error. -/
def Socket.Task.failed : Socket.Task → Bool
  | exited (.error _) => true
  | _ => false

def Channel.Task.failed : Channel.Task → Bool
  | exited (.error _) => true
  | _ => false

namespace Phase

def isClosing : Phase → Bool
  | closing => true
  | _ => false

def isError : Phase → Bool
  | returned (.error _) => true
  | _ => false

end Phase

namespace System

open Machine

/-- The listener of the channel, or of the socket, has ended. -/
def listenerEnded (s : System) : Option JoinReference → Bool
  | none => !s.socket.task.isRunning
  | some c => (s.channels.lookup c).any (fun w => !w.task.isRunning)

/-- It has ended with an error. -/
def listenerFailed (s : System) : Option JoinReference → Bool
  | none => s.socket.task.failed
  | some c => (s.channels.lookup c).any (fun w => w.task.failed)

def hasJoinHandle (s : System) : Option JoinReference → Bool
  | none => s.joinHandle
  | some c => (s.channels.lookup c).any (fun w => w.joinHandle)

/-- The senders of callers that the listener holds, its queues included. -/
def listenerTxs (s : System) : Option JoinReference → List TxId
  | none => s.queuedTxs ++ s.socket.heldTxs
  | some c => (s.channels.lookup c).elim [] Channel.World.heldTxs

/-- A join handle is taken only of a listener that has ended with an error, unless it is `shutdown`
that takes it. -/
def takesErrors (s : System) : Label → Bool
  | .advance i =>
      match s.operations[i]? with
      | some op =>
          !op.phase.isClosing || op.request.isShutdown
            || !s.hasJoinHandle op.request.channel? || s.listenerFailed op.request.channel?
      | none => true
  | .fail _ => !s.hasJoinHandle none || s.listenerFailed none
  | _ => true

/-- A call that gets no answer: its listener has ended before the command was sent, or has dropped
the sender of its oneshot channel. -/
inductive CutOff (s : System) (op : Operation) : Prop
  | ended : op.phase = .sending → s.listenerEnded op.request.channel? = true → CutOff s op
  | dropped {tx deadline} : op.phase = .waiting tx deadline → s.result tx = .closed → CutOff s op

/-- The label is a step of the call `i`. -/
def Label.advances (i : Nat) : Label → Bool
  | advance j => j = i
  | _ => false

/-- Each call that is cut off in `s₁` has returned an error in `s₂`, or can go on by itself, which it
has done at most twice. No listener that has ended holds the sender of a call. No call but
`shutdown` panics, and no channel listener panics over a join handle. -/
structure ReturnsErrors (s₁ : System) (ls : List Label) (s₂ : System) : Prop where
  returns {i : Nat} {op : Operation} : s₁.operations[i]? = some op →
    op.request.isShutdown = false → CutOff s₁ op →
    ∃ op', s₂.operations[i]? = some op' ∧ op'.request = op.request ∧ (op'.phase.isError = true ∨
      ((s₂.advanceStep i).isSome = true ∧ ls.countP (Label.advances i) ≤ 2))
  drops {channel? : Option JoinReference} : s₂.listenerEnded channel? = true →
    s₂.listenerTxs channel? = []
  calls {op : Operation} {reason : Panic} : op ∈ s₂.operations → op.phase = .panicked reason →
    op.request.isShutdown = true ∧ reason = .propagated
  listeners {c : JoinReference} {w : Channel.World} {reason : Panic} :
    s₂.channels.lookup c = some w → w.task = .panicked reason → reason = .unreachable

variable {strategy : Option (Nat → Duration)} {s s' : System} {label : Label} {tx : TxId}
variable {ok : System → Label → Prop} {ls : List Label} {c : JoinReference} {i : Nat}
variable {w w' : Channel.World} {op op' : Operation} {phase : Phase} {channel? : Option JoinReference}

/-! ## The steps of a call -/

/-- All that a step of a call can come to. -/
inductive PhaseStep (s s' : System) (i : Nat) (op : Operation) : Label → Phase → Prop
  | sent {deadline} : op.phase = .sending → s.listenerEnded op.request.channel? = false →
      s'.fresh = s.fresh + 1 → PhaseStep s s' i op (.advance i) (.waiting s.fresh deadline)
  | cast : op.phase = .sending → s.listenerEnded op.request.channel? = false →
      PhaseStep s s' i op (.advance i) (.returned (.ok none))
  | shutdown : op.phase = .sending → op.request.isShutdown = true →
      PhaseStep s s' i op (.advance i) .closing
  | ended : op.phase = .sending → s.listenerEnded op.request.channel? = true →
      PhaseStep s s' i op (.advance i) .closing
  | answered {tx deadline result} : op.phase = .waiting tx deadline → s.result tx = .sent result →
      PhaseStep s s' i op (.advance i) (.returned result)
  | dropped {tx deadline} : op.phase = .waiting tx deadline → s.result tx = .closed →
      PhaseStep s s' i op (.advance i) .closing
  | taken : op.phase = .closing → s.hasJoinHandle op.request.channel? = true →
      PhaseStep s s' i op (.advance i) .joining
  | alreadyJoined {error} : op.phase = .closing →
      PhaseStep s s' i op (.advance i) (.returned (.error error))
  | joined {result} : op.phase = .joining → s.taskResult op = some result →
      PhaseStep s s' i op (.advance i) (afterShutdown op.request result)
  | expired {tx deadline} : op.phase = .waiting tx (some deadline) →
      PhaseStep s s' i op (.expire i) (.returned (.error .timeout))

/-- What a step of the client does to the calls. -/
inductive OperationsChange (s s' : System) (label : Label) : Prop
  | kept : s'.operations = s.operations → (∀ i, label ≠ .advance i) → OperationsChange s s' label
  | begun {request createdAt} : s'.operations = s.operations ++ [⟨request, createdAt, .sending⟩] →
      (∀ c, request.channel? = some c → (s.channels.lookup c).isSome = true) →
      (∀ i, label ≠ .advance i) → OperationsChange s s' label
  | stepped {i : Nat} {op : Operation} {phase : Phase} : s.operations[i]? = some op →
      s'.operations = s.operations.set i { op with phase } → PhaseStep s s' i op label phase →
      OperationsChange s s' label

theorem sendToSocket_operations (hsocket : op.request.channel? = none) (hphase : op.phase = .sending)
    (h : s.sendToSocket i op = some s') : ∃ phase,
    s'.operations = s.operations.set i { op with phase } ∧
      PhaseStep s s' i op (.advance i) phase := by
  unfold sendToSocket at h
  simp only [] at h
  split at h
  · rename_i hrunning
    have hrunning : s.listenerEnded op.request.channel? = false := by
      simpa [listenerEnded, hsocket] using hrunning
    split at h
    · split at h <;> cases h
      exact ⟨_, rfl, .sent hphase hrunning rfl⟩
    · split at h <;> cases h
      exact ⟨_, rfl, .sent hphase hrunning rfl⟩
    · split at h <;> cases h
      exact ⟨_, rfl, .shutdown hphase (by simp [*, Request.isShutdown])⟩
    · split at h <;> cases h
      exact ⟨_, rfl, .sent hphase hrunning rfl⟩
    · cases h
  · rename_i hended
    cases h
    exact ⟨_, rfl, .ended hphase (by simpa [listenerEnded, hsocket] using hended)⟩

theorem sendToChannel_operations (hchannel : op.request.channel? = some c)
    (hw : s.channels.lookup c = some w) (hphase : op.phase = .sending)
    (h : s.sendToChannel i op c w = some s') : ∃ phase,
    s'.operations = s.operations.set i { op with phase } ∧
      PhaseStep s s' i op (.advance i) phase := by
  unfold sendToChannel at h
  simp only [] at h
  split at h
  · cases h
    exact ⟨_, rfl, .shutdown hphase (by simp [*, Request.isShutdown])⟩
  · split at h
    · rename_i hrunning
      have hrunning : s.listenerEnded op.request.channel? = false := by
        simpa [listenerEnded, hchannel, hw] using hrunning
      split at h
      · split at h <;> cases h
        exact ⟨_, rfl, .sent hphase hrunning rfl⟩
      · split at h <;> cases h
        exact ⟨_, rfl, .sent hphase hrunning rfl⟩
      · split at h <;> cases h
        exact ⟨_, rfl, .cast hphase hrunning⟩
      · split at h <;> cases h
        exact ⟨_, rfl, .sent hphase hrunning rfl⟩
      · cases h
    · rename_i hended
      cases h
      exact ⟨_, rfl, .ended hphase (by simpa [listenerEnded, hchannel, hw] using hended)⟩

theorem takeHandle_operations (hphase : op.phase = .closing) (h : s.takeHandle i op = some s') :
    ∃ phase, s'.operations = s.operations.set i { op with phase } ∧
      PhaseStep s s' i op (.advance i) phase := by
  unfold takeHandle at h
  split at h
  · rename_i hsocket
    split at h <;> rename_i hhandle <;> cases h
    · exact ⟨_, rfl, .taken hphase (by simpa [hasJoinHandle, hsocket] using hhandle)⟩
    · exact ⟨_, rfl, .alreadyJoined hphase⟩
  · rename_i c hchannel
    split at h
    · rename_i w hw
      split at h <;> rename_i hhandle <;> cases h
      · exact ⟨_, rfl, .taken hphase (by simpa [hasJoinHandle, hchannel, hw] using hhandle)⟩
      · exact ⟨_, rfl, .alreadyJoined hphase⟩
    · cases h

theorem advanceStep_operations (h : s.advanceStep i = some s') :
    OperationsChange s s' (.advance i) := by
  unfold advanceStep at h
  split at h
  · rename_i op hop
    have stepped : (∃ phase, s'.operations = s.operations.set i { op with phase } ∧
        PhaseStep s s' i op (.advance i) phase) → OperationsChange s s' (.advance i) := by
      rintro ⟨phase, hset, hstep⟩
      exact .stepped hop hset hstep
    split at h
    · rename_i hphase
      split at h
      · exact stepped (sendToSocket_operations ‹_› hphase h)
      · split at h
        · exact stepped (sendToChannel_operations ‹_› ‹_› hphase h)
        · cases h
    · rename_i hphase
      split at h <;> cases h
      · exact stepped ⟨_, rfl, .answered hphase ‹_›⟩
      · exact stepped ⟨_, rfl, .dropped hphase ‹_›⟩
    · exact stepped (takeHandle_operations ‹_› h)
    · obtain ⟨result, hresult, rfl⟩ := Option.map_eq_some_iff.mp h
      exact stepped ⟨_, rfl, .joined ‹_› hresult⟩
    · cases h
    · cases h
  · cases h

@[simp] theorem setSocket_operations (v : Socket.World) :
    (s.setSocket v).operations = s.operations := by
  unfold setSocket
  split <;> rfl

@[simp] theorem popPush_operations (read : Option TxId) :
    (s.popPush read).operations = s.operations := by
  cases read <;> rfl

theorem SystemStep.operations (h : SystemStep strategy s label s') (hlabel : label.isUser = false) :
    s'.operations = s.operations := by
  cases h with
  | user huser => exact absurd huser (by simp [hlabel])
  | select hreceive =>
      rw [setSocket_operations]
      cases hreceive <;> rfl
  | poll => exact popPush_operations _
  | _ => rfl

theorem operations_cases (h : (machine strategy).step s label = some s') :
    OperationsChange s s' label := by
  cases label with
  | advance i => exact advanceStep_operations h
  | expire i =>
      simp only [machine, step, expireStep] at h
      split at h
      · split at h
        · split at h <;> cases h
          exact .stepped ‹_› rfl (.expired ‹_›)
        · cases h
      · cases h
  | begin request =>
      simp only [machine, step, beginStep] at h
      split at h
      · rename_i hsocket
        cases h
        exact .begun rfl (by simp [hsocket]) (by simp)
      · rename_i c hchannel
        split at h
        · rename_i w hw
          split at h <;> cases h
          refine .begun rfl ?_ (by simp)
          rintro c' hc'
          cases hchannel.symm.trans hc'
          rw [hw]
          rfl
        · cases h
  | drop c =>
      simp only [machine, step, dropStep] at h
      split at h
      · split at h <;> cases h
        exact .kept rfl (by simp)
      · cases h
  | _ => exact .kept ((step_cases h).operations rfl) (by simp)

/-! ## The end of a listener -/

theorem task_of_ended {v v' : Socket.World} {l : Socket.Label}
    (h : (Socket.machine strategy).step v l = some v') (hended : v.task.isRunning = false) :
    v'.task = v.task := by
  cases Socket.step_cases h with
  | elapse => rfl
  | connected htask | unconnected htask | pushed htask | publish htask =>
      rw [htask] at hended
      cases hended

theorem SystemStep.socket_ended (h : SystemStep strategy s label s')
    (hended : s.socket.task.isRunning = false) : s'.socket.task = s.socket.task := by
  cases h.socket_cases with
  | kept heq => rw [heq]
  | stepped _ hstep => exact task_of_ended hstep hended
  | selected _ _ hstep => exact task_of_ended hstep hended

theorem ChannelStep.ended (h : ChannelStep s s' c w label w')
    (hended : w.task.isRunning = false) : w'.task = w.task := by
  cases h with
  | user => rfl
  | stateCommand | sendCommand => rfl
  | poll hpoll =>
      rw [hpoll.isRunning] at hended
      cases hended
  | forward htask | fail htask | publish htask =>
      rw [htask] at hended
      cases hended

theorem isRunning_of_failed {task : Channel.Task} (h : task.failed = true) :
    task.isRunning = false := by
  cases task <;> first | rfl | cases h

theorem isRunning_of_socket_failed {task : Socket.Task} (h : task.failed = true) :
    task.isRunning = false := by
  cases task <;> first | rfl | cases h

/-- What an ended listener has come to, it stays at. -/
theorem SystemStep.channel_ended (h : SystemStep strategy s label s')
    (hrun : Run (machine strategy) ok init ls s) (hw : s.channels.lookup c = some w)
    (hended : w.task.isRunning = false) :
    ∃ w', s'.channels.lookup c = some w' ∧ w'.task = w.task := by
  obtain ⟨w', hw', hchange⟩ := h.channel_next hrun hw
  refine ⟨w', hw', ?_⟩
  rcases hchange with rfl | hstep
  · rfl
  · exact hstep.ended hended

theorem SystemStep.listenerEnded (h : SystemStep strategy s label s')
    (hrun : Run (machine strategy) ok init ls s) (hended : s.listenerEnded channel? = true) :
    s'.listenerEnded channel? = true := by
  cases channel? with
  | none =>
      simp only [System.listenerEnded, Bool.not_eq_true'] at hended ⊢
      rw [h.socket_ended hended, hended]
  | some c =>
      obtain ⟨w, hw, hended⟩ := (Option.any_eq_true _ _).mp hended
      obtain ⟨w', hw', htask⟩ := h.channel_ended hrun hw (by simpa using hended)
      exact (Option.any_eq_true _ _).mpr ⟨w', hw', htask ▸ hended⟩

theorem SystemStep.listenerFailed (h : SystemStep strategy s label s')
    (hrun : Run (machine strategy) ok init ls s) (hfailed : s.listenerFailed channel? = true) :
    s'.listenerFailed channel? = true := by
  cases channel? with
  | none =>
      simp only [System.listenerFailed] at hfailed ⊢
      rw [h.socket_ended (isRunning_of_socket_failed hfailed), hfailed]
  | some c =>
      obtain ⟨w, hw, hfailed⟩ := (Option.any_eq_true _ _).mp hfailed
      obtain ⟨w', hw', htask⟩ := h.channel_ended hrun hw (isRunning_of_failed hfailed)
      exact (Option.any_eq_true _ _).mpr ⟨w', hw', htask ▸ hfailed⟩

theorem taskResult_of_failed (h : s.listenerFailed op.request.channel? = true) :
    ∃ error, s.taskResult op = some (.ok (.error error)) := by
  unfold taskResult
  cases hchannel : op.request.channel? with
  | none =>
      rw [hchannel] at h
      have htask : s.socket.task.failed = true := h
      cases hs : s.socket.task with
      | exited result =>
          cases result with
          | ok => rw [hs] at htask; cases htask
          | error error => exact ⟨_, rfl⟩
      | _ => rw [hs] at htask; cases htask
  | some c =>
      rw [hchannel] at h
      obtain ⟨w, hw, htask⟩ := (Option.any_eq_true _ _).mp h
      simp only [hw]
      cases hs : w.task with
      | exited result =>
          cases result with
          | ok => rw [hs] at htask; cases htask
          | error error => exact ⟨_, rfl⟩
      | _ => rw [hs] at htask; cases htask

/-! ## Senders of a listener that has ended -/

theorem SystemStep.queuedTxs_of_ended (h : SystemStep strategy s label s')
    (ih : s.socket.task.isRunning = false → s.queuedTxs = [])
    (hended : s'.socket.task.isRunning = false) : s'.queuedTxs = [] := by
  have running : s.socket.task.isRunning = true → s.socket.task.isRunning = false → False :=
    fun h h' => absurd (h.symm.trans h') (by simp)
  cases h with
  | user _ h =>
      cases h with
      | caller | channel | stateCommand | sendCommand => exact ih hended
      | socketCommand hrunning | channelSpawn hrunning => exact (running hrunning hended).elim
  | @select event input taken socket hreceive =>
      rw [setSocket_socket] at hended
      unfold setSocket
      rw [if_neg (by simp [hended])]
      rfl
  | pushed | pushedClosed | publish => cases hended
  | forwardState _ _ hrunning | forwardSend _ _ hrunning => exact (running hrunning hended).elim
  | poll =>
      rw [← List.subset_nil]
      exact (popPush_queuedTxs (s := s) _).trans (ih (popPush_socket (s := s) _ ▸ hended)) ▸
        List.Subset.refl _
  | _ => exact ih hended

theorem socket_txs_of_run (h : Run (machine strategy) ok init ls s)
    (hended : s.listenerEnded none = true) : s.listenerTxs none = [] := by
  have hended : s.socket.task.isRunning = false := by simpa [listenerEnded] using hended
  have hqueued : s.queuedTxs = [] := by
    refine h.invariant (I := fun s => s.socket.task.isRunning = false → s.queuedTxs = [])
      (fun _ => rfl) ?_ hended
    intro s label s' ih _ hs
    exact (step_cases hs).queuedTxs_of_ended ih
  have hheld : s.socket.heldTxs = [] := by
    unfold Socket.World.heldTxs
    cases htask : s.socket.task <;> rw [htask] at hended <;> first | rfl | cases hended
  exact List.append_eq_nil_iff.mpr ⟨hqueued, hheld⟩

theorem ChannelStep.queuedTxs_of_ended (h : ChannelStep s s' c w label w')
    (ih : w.task.isRunning = false → w.queuedTxs = [])
    (hended : w'.task.isRunning = false) : w'.queuedTxs = [] := by
  cases h with
  | user => exact ih hended
  | stateCommand hrunning | sendCommand hrunning => exact absurd (hrunning.symm.trans hended) (by simp)
  | poll hpoll => exact hpoll.queuedTxs_of_ended hended
  | fail => exact Channel.proceed_queuedTxs hended
  | forward | publish => cases hended

theorem channel_txs_of_run (h : Run (machine strategy) ok init ls s)
    (hw : s.channels.lookup c = some w) (hended : w.task.isRunning = false) : w.heldTxs = [] := by
  have hqueued : w.queuedTxs = [] := by
    refine channel_invariant (I := fun _ w => w.task.isRunning = false → w.queuedTxs = [])
      (fun _ _ _ _ _ h => rfl) ?_ h hw hended
    intro s s' c w label w' ih hstep
    exact hstep.queuedTxs_of_ended ih
  have hheld : w.task.heldTxs = [] := by
    cases htask : w.task <;> rw [htask] at hended <;> first | rfl | cases hended
  exact List.append_eq_nil_iff.mpr ⟨hqueued, hheld⟩

theorem drops_of_run (h : Run (machine strategy) ok init ls s)
    (hended : s.listenerEnded channel? = true) : s.listenerTxs channel? = [] := by
  cases channel? with
  | none => exact socket_txs_of_run h hended
  | some c =>
      obtain ⟨w, hw, hended⟩ := (Option.any_eq_true _ _).mp hended
      simp only [listenerTxs, hw]
      exact channel_txs_of_run h hw (by simpa using hended)

/-! ## Calls along a run -/

/-- The channel of a call exists, and the call waits on a oneshot channel that was made. -/
structure Known (s : System) (op : Operation) : Prop where
  channel {c : JoinReference} : op.request.channel? = some c → (s.channels.lookup c).isSome = true
  made {tx : TxId} {deadline : Option Instant} : op.phase = .waiting tx deadline → tx < s.fresh

theorem Known.step (h : Known s op) (hstep : SystemStep strategy s label s') : Known s' op where
  channel hc := hstep.lookup_isSome (h.channel hc)
  made hphase := Nat.lt_of_lt_of_le (h.made hphase) hstep.fresh_mono

theorem PhaseStep.made {deadline : Option Instant} (h : PhaseStep s s' i op label phase)
    (hphase : phase = .waiting tx deadline) : tx < s'.fresh := by
  cases h with
  | sent _ _ hfresh =>
      cases hphase
      rw [hfresh]
      exact Nat.lt_succ_self _
  | @joined result =>
      unfold afterShutdown at hphase
      repeat' split at hphase
      all_goals cases hphase
  | _ => cases hphase

/-- A call after a step is one from before, it has just begun, or it has taken a step. -/
theorem OperationsChange.cases_of_mem (h : OperationsChange s s' label)
    (hop' : op' ∈ s'.operations) : op' ∈ s.operations ∨
    (op'.phase = .sending ∧
      ∀ c, op'.request.channel? = some c → (s.channels.lookup c).isSome = true) ∨
    ∃ i op phase, s.operations[i]? = some op ∧ op' = { op with phase } ∧
      PhaseStep s s' i op label phase := by
  cases h with
  | kept heq => exact .inl (heq ▸ hop')
  | begun heq hchannel =>
      rw [heq] at hop'
      rcases List.mem_append.mp hop' with hop' | hop'
      · exact .inl hop'
      · obtain rfl := List.mem_singleton.mp hop'
        exact .inr (.inl ⟨rfl, hchannel⟩)
  | stepped hop heq hphase =>
      rw [heq] at hop'
      rcases List.mem_or_eq_of_mem_set hop' with hop' | rfl
      · exact .inl hop'
      · exact .inr (.inr ⟨_, _, _, hop, rfl, hphase⟩)

theorem known_of_run (h : Run (machine strategy) ok init ls s) (hop : op ∈ s.operations) :
    Known s op := by
  refine h.invariant (I := fun s => ∀ op ∈ s.operations, Known s op) ?_ ?_ op hop
  · intro op hop
    cases hop
  intro s label s' ih _ hs op' hop'
  have hstep := step_cases hs
  rcases (operations_cases hs).cases_of_mem hop' with
    hop | ⟨hphase, hchannel⟩ | ⟨i, op, phase, hop, rfl, hphase⟩
  · exact (ih op' hop).step hstep
  · exact ⟨fun hc => hstep.lookup_isSome (hchannel _ hc), by simp [hphase]⟩
  · exact ⟨((ih op (List.mem_of_getElem? hop)).step hstep).channel, fun h => hphase.made h⟩

/-- No call but `shutdown` takes the join handle of a listener that has not ended with an error. -/
structure Awaiting (s : System) (op : Operation) : Prop where
  failed : op.phase = .joining → op.request.isShutdown = false →
    s.listenerFailed op.request.channel? = true
  panicked {reason : Panic} : op.phase = .panicked reason →
    op.request.isShutdown = true ∧ reason = .propagated

theorem taskResult_panic {reason : Panic} (h : s.taskResult op = some (.error reason)) :
    reason = .propagated := by
  unfold taskResult at h
  repeat' split at h
  all_goals cases h
  all_goals rfl

theorem PhaseStep.awaiting (h : PhaseStep s s' i op label phase) (hop : s.operations[i]? = some op)
    (hok : takesErrors s label = true) (hold : Awaiting s op) :
    Awaiting s { op with phase } := by
  cases h with
  | taken hphase hhandle =>
      refine ⟨fun _ hshutdown => ?_, by simp⟩
      have hshutdown : op.request.isShutdown = false := hshutdown
      simpa [takesErrors, hop, hphase, Phase.isClosing, hhandle, hshutdown] using hok
  | @joined result hphase hresult =>
      cases hshutdown : op.request.isShutdown with
      | true =>
          rcases result with reason | ⟨error | u⟩
          · obtain rfl := taskResult_panic hresult
            exact ⟨by simp [afterShutdown], by simp [afterShutdown, hshutdown]⟩
          · exact ⟨by simp [afterShutdown], by simp [afterShutdown]⟩
          · exact ⟨by simp [afterShutdown, hshutdown], by simp [afterShutdown, hshutdown]⟩
      | false =>
          obtain ⟨error, herror⟩ := taskResult_of_failed (hold.failed hphase hshutdown)
          cases herror.symm.trans hresult
          exact ⟨by simp [afterShutdown], by simp [afterShutdown]⟩
  | _ => exact ⟨by simp, by simp⟩

theorem awaiting_of_run (h : Run (machine strategy) (fun s l => takesErrors s l = true) init ls s)
    (hop : op ∈ s.operations) : Awaiting s op := by
  refine h.invariant_of_run (I := fun s => ∀ op ∈ s.operations, Awaiting s op) ?_ ?_ op hop
  · intro op hop
    cases hop
  intro ls s label s' hrun ih hok hs op' hop'
  have hstep := step_cases hs
  have stays : ∀ {op}, Awaiting s op → Awaiting s' op :=
    fun h => ⟨fun hj hn => hstep.listenerFailed hrun (h.failed hj hn), h.panicked⟩
  rcases (operations_cases hs).cases_of_mem hop' with
    hop | ⟨hphase, hchannel⟩ | ⟨i, op, phase, hop, rfl, hphase⟩
  · exact stays (ih op' hop)
  · exact ⟨by simp [hphase], by simp [hphase]⟩
  · exact stays (hphase.awaiting hop hok (ih op (List.mem_of_getElem? hop)))

/-! ## Listeners that find the socket gone -/

/-- A handler that is ready panics only where the source says `unreachable!`. -/
theorem panic_of_ready {env : Channel.Surroundings} {state : Channel.State}
    {branch : Channel.Branch} {flow : Channel.Flow} {reason : Panic}
    (h : Channel.BranchReady env w state branch w' flow) (hflow : flow = .panic reason) :
    reason = .unreachable := by
  cases h with
  | @stateCommand state command =>
      cases command with
      | join createdAt timeout tx =>
          cases state <;>
            simp only [Channel.updateState, Channel.join, Channel.socketJoinIfNotTimedOut,
              Channel.socketJoin] at hflow <;>
            first
              | (split at hflow <;> cases hflow)
              | (cases hflow; rfl)
              | cases hflow
      | leave tx => cases state <;> cases hflow
  | @sendCommand joined command => cases command <;> cases hflow
  | _ => cases hflow

theorem failed_ne_panic {call : Channel.SocketCall} {error : Socket.ShutdownError}
    {reason : Panic} : call.failed error ≠ .panic reason := by
  cases call with
  | join state => cases state <;> simp [Channel.SocketCall.failed, Channel.socketShutdown]
  | _ => simp [Channel.SocketCall.failed]

theorem panic_of_proceed {flow : Channel.Flow} {reason : Panic}
    (h : (w.proceed flow).task = .panicked reason) : flow = .panic reason := by
  cases flow <;> cases h
  rfl

theorem socketShutdownError_of_failed
    (h : (!s.hasJoinHandle none || s.listenerFailed none) = true) :
    ∃ error, s.socketShutdownError = .ok error := by
  unfold socketShutdownError
  simp only [hasJoinHandle, listenerFailed] at h
  split
  · rename_i hhandle
    have hfailed : s.socket.task.failed = true := by simpa [hhandle] using h
    cases htask : s.socket.task with
    | exited result =>
        cases result with
        | ok => rw [htask] at hfailed; cases hfailed
        | error error => exact ⟨_, rfl⟩
    | _ => rw [htask] at hfailed; cases hfailed
  · exact ⟨_, rfl⟩

theorem ChannelStep.unreachable {reason : Panic} (h : ChannelStep s s' c w label w')
    (hok : takesErrors s label = true) (hold : w.task = .panicked reason → reason = .unreachable)
    (hpanic : w'.task = .panicked reason) : reason = .unreachable := by
  cases h with
  | user | stateCommand | sendCommand => exact hold hpanic
  | poll hpoll =>
      cases hpoll with
      | ready htask hready => exact panic_of_ready hready (panic_of_proceed hpanic)
      | _ => cases hpanic
  | forward | publish => cases hpanic
  | fail htask hrunning hflow =>
      obtain ⟨error, herror⟩ := socketShutdownError_of_failed hok
      rcases hflow with ⟨error, _, rfl⟩ | ⟨reason, hreason, _⟩
      · exact absurd (panic_of_proceed hpanic) failed_ne_panic
      · cases herror.symm.trans hreason

theorem unreachable_of_run {reason : Panic}
    (h : Run (machine strategy) (fun s l => takesErrors s l = true) init ls s)
    (hw : s.channels.lookup c = some w) (hpanic : w.task = .panicked reason) :
    reason = .unreachable := by
  refine h.invariant (I := fun s => ∀ c w, s.channels.lookup c = some w →
    w.task = .panicked reason → reason = .unreachable) ?_ ?_ c w hw hpanic
  · intro c w hw
    rw [lookup_init] at hw
    cases hw
  intro s label s' ih hok hs c w' hw' hpanic
  cases (step_cases hs).channel_cases hw' with
  | kept hw => exact ih c w' hw hpanic
  | stepped hw hstep => exact hstep.unreachable hok (ih c _ hw) hpanic
  | spawned _ heq =>
      subst heq
      cases hpanic

/-! ## Calls that are cut off -/

/-- How far a call is that was cut off, after `n` steps of its own. -/
inductive Returning (s : System) (op : Operation) (n : Nat) : Prop
  | sending : op.phase = .sending → s.listenerEnded op.request.channel? = true → n = 0 →
      Returning s op n
  | waiting {tx deadline} : op.phase = .waiting tx deadline → s.result tx = .closed → n = 0 →
      Returning s op n
  | closing : op.phase = .closing → n ≤ 1 → Returning s op n
  | joining : op.phase = .joining → s.listenerFailed op.request.channel? = true → n ≤ 2 →
      Returning s op n
  | returned {error} : op.phase = .returned (.error error) → Returning s op n

variable {n : Nat}

theorem CutOff.returning (h : CutOff s op) : Returning s op 0 := by
  cases h with
  | ended hphase hended => exact .sending hphase hended rfl
  | dropped hphase hclosed => exact .waiting hphase hclosed rfl

namespace Returning

theorem step (h : Returning s op n) (hrun : Run (machine strategy) ok init ls s)
    (hop : op ∈ s.operations) (hstep : SystemStep strategy s label s') : Returning s' op n := by
  cases h with
  | sending hphase hended hn => exact .sending hphase (hstep.listenerEnded hrun hended) hn
  | waiting hphase hclosed hn =>
      exact .waiting hphase (hstep.closed hrun ((known_of_run hrun hop).made hphase) hclosed) hn
  | closing hphase hn => exact .closing hphase hn
  | joining hphase hfailed hn => exact .joining hphase (hstep.listenerFailed hrun hfailed) hn
  | returned hphase => exact .returned hphase

theorem advance (h : Returning s op n) (hstep : PhaseStep s s' i op label phase)
    (hnew : Awaiting s' { op with phase }) (hshutdown : op.request.isShutdown = false) :
    Returning s' { op with phase } (n + 1) := by
  cases h with
  | sending hphase hended hn =>
      subst hn
      cases hstep with
      | sent _ hrunning | cast _ hrunning => cases hended.symm.trans hrunning
      | shutdown _ hs => cases hshutdown.symm.trans hs
      | ended => exact .closing rfl (Nat.le_refl _)
      | answered h | dropped h | taken h | alreadyJoined h | joined h | expired h =>
          cases hphase.symm.trans h
  | waiting hphase hclosed hn =>
      subst hn
      cases hstep with
      | answered h hresult =>
          cases hphase.symm.trans h
          cases hclosed.symm.trans hresult
      | dropped => exact .closing rfl (Nat.le_refl _)
      | expired => exact .returned rfl
      | sent h | cast h | shutdown h | ended h | taken h | alreadyJoined h | joined h =>
          cases hphase.symm.trans h
  | closing hphase hn =>
      cases hstep with
      | taken => exact .joining rfl (hnew.failed rfl hshutdown) (Nat.succ_le_succ hn)
      | alreadyJoined => exact .returned rfl
      | sent h | cast h | shutdown h | ended h | answered h | dropped h | joined h | expired h =>
          cases hphase.symm.trans h
  | joining hphase hfailed hn =>
      cases hstep with
      | joined _ hresult =>
          obtain ⟨error, herror⟩ := taskResult_of_failed hfailed
          cases herror.symm.trans hresult
          exact .returned rfl
      | sent h | cast h | shutdown h | ended h | answered h | dropped h | taken h
        | alreadyJoined h | expired h => cases hphase.symm.trans h
  | returned hphase =>
      cases hstep with
      | sent h | cast h | shutdown h | ended h | answered h | dropped h | taken h
        | alreadyJoined h | joined h | expired h => cases hphase.symm.trans h

/-- A call that is cut off has returned its error, or its next step is open to it. -/
theorem enabled (h : Returning s op n) (hop : s.operations[i]? = some op) (hknown : Known s op) :
    op.phase.isError = true ∨ ((s.advanceStep i).isSome = true ∧ n ≤ 2) := by
  unfold advanceStep
  simp only [hop]
  cases h with
  | sending hphase hended hn =>
      refine .inr ⟨?_, by omega⟩
      simp only [hphase]
      cases hchannel : op.request.channel? with
      | none =>
          rw [hchannel] at hended
          have hrunning : s.socket.task.isRunning = false := by simpa [listenerEnded] using hended
          simp [sendToSocket, hrunning]
      | some c =>
          rw [hchannel] at hended
          obtain ⟨w, hw, hrunning⟩ := (Option.any_eq_true _ _).mp hended
          have hrunning : w.task.isRunning = false := by simpa using hrunning
          simp only [hw, sendToChannel, hrunning]
          split <;> simp
  | waiting hphase hclosed hn =>
      refine .inr ⟨?_, by omega⟩
      simp [hphase, hclosed]
  | closing hphase hn =>
      refine .inr ⟨?_, by omega⟩
      simp only [hphase, takeHandle]
      cases hchannel : op.request.channel? with
      | none =>
          simp only []
          split <;> rfl
      | some c =>
          obtain ⟨w, hw⟩ := Option.isSome_iff_exists.mp (hknown.channel hchannel)
          simp only [hw]
          split <;> rfl
  | joining hphase hfailed hn =>
      obtain ⟨error, herror⟩ := taskResult_of_failed hfailed
      refine .inr ⟨?_, hn⟩
      simp [hphase, herror]
  | returned hphase => exact .inl (by rw [hphase]; rfl)

end Returning

theorem OperationsChange.at (h : OperationsChange s s' label) (hop : s.operations[i]? = some op) :
    (s'.operations[i]? = some op ∧ label ≠ .advance i) ∨
      ∃ phase, s'.operations[i]? = some { op with phase } ∧ PhaseStep s s' i op label phase := by
  have hi := (List.getElem?_eq_some_iff.mp hop).1
  cases h with
  | kept heq hne => exact .inl ⟨heq ▸ hop, hne i⟩
  | begun heq _ hne => exact .inl ⟨by rw [heq, List.getElem?_append_left hi, hop], hne i⟩
  | @stepped j op' phase hop' heq hphase =>
      by_cases hij : j = i
      · subst hij
        cases hop'.symm.trans hop
        exact .inr ⟨phase, by rw [heq, List.getElem?_set_self hi], hphase⟩
      · refine .inl ⟨by rw [heq, List.getElem?_set_ne hij, hop], ?_⟩
        rintro rfl
        cases hphase <;> exact hij rfl

/-- A call that is cut off goes on to its error. -/
theorem returning_of_run {s₁ s₂ : System} {ls₁ ls₂ : List Label}
    (h₁ : Run (machine strategy) (fun s l => takesErrors s l = true) init ls₁ s₁)
    (h₂ : Run (machine strategy) (fun s l => takesErrors s l = true) s₁ ls₂ s₂)
    (hop : s₁.operations[i]? = some op) (hshutdown : op.request.isShutdown = false)
    (hcut : CutOff s₁ op) :
    ∃ op', s₂.operations[i]? = some op' ∧ op'.request = op.request ∧
      Returning s₂ op' (ls₂.countP (Label.advances i)) := by
  induction h₂ with
  | nil => exact ⟨op, hop, rfl, hcut.returning⟩
  | @snoc ls s label s' hrun hok hs ih =>
      obtain ⟨op₁, hop₁, hrequest, hreturning⟩ := ih
      have hmem := List.mem_of_getElem? hop₁
      have hstep := step_cases hs
      have hall := h₁.trans hrun
      rw [List.countP_append]
      rcases (operations_cases hs).at hop₁ with ⟨hop', hne⟩ | ⟨phase, hop', hphase⟩
      · have hcount : [label].countP (Label.advances i) = 0 := by
          cases label with
          | advance j => simpa [Label.advances, eq_comm] using hne
          | _ => rfl
        rw [hcount]
        exact ⟨op₁, hop', hrequest, hreturning.step hall hmem hstep⟩
      · have hnew := awaiting_of_run (hall.snoc hok hs) (List.mem_of_getElem? hop')
        have hadvanced := hreturning.advance hphase hnew (hrequest ▸ hshutdown)
        refine ⟨_, hop', hrequest, ?_⟩
        cases hphase with
        | expired => exact .returned rfl
        | _ => simpa [Label.advances] using hadvanced

theorem returnsErrors_of_run {s₁ s₂ : System} {ls₁ ls₂ : List Label}
    (h₁ : Run (machine strategy) (fun s l => takesErrors s l = true) init ls₁ s₁)
    (h₂ : Run (machine strategy) (fun s l => takesErrors s l = true) s₁ ls₂ s₂) :
    ReturnsErrors s₁ ls₂ s₂ where
  returns hop hshutdown hcut := by
    obtain ⟨op', hop', hrequest, hreturning⟩ := returning_of_run h₁ h₂ hop hshutdown hcut
    have hknown := known_of_run (h₁.trans h₂) (List.mem_of_getElem? hop')
    exact ⟨op', hop', hrequest, hreturning.enabled hop' hknown⟩
  drops := drops_of_run (h₁.trans h₂)
  calls hop := (awaiting_of_run (h₁.trans h₂) hop).panicked
  listeners := unreachable_of_run (h₁.trans h₂)

end System

end PhoenixChannels
