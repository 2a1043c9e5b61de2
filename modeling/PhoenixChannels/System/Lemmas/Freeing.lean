import PhoenixChannels.System.Lemmas.Connectivity
import PhoenixChannels.System.Lemmas.Deadlock
import PhoenixChannels.System.Lemmas.Events

/-!
# How a listener frees its push queue

A joined listener comes to its pushes by itself, and one whose join was answered to the answer. On
the way it handles what is polled before.
-/

namespace PhoenixChannels.Channel

variable {env : Surroundings} {w w' : World} {state : State} {branch : Branch} {flow : Flow}
variable {read : Option TxId} {rest disabled : List Branch}

/-! ## The order of the branches -/

/-- What is left of a round is in the order of the branches, and the answer to a join is not
disabled. -/
structure InOrder (state : State) (rest disabled : List Branch) : Prop where
  sublist : rest.Sublist state.branches
  answerable : .socketJoined ∉ disabled

def World.PollsInOrder (w : World) : Prop :=
  ∀ state rest disabled, w.task = .selecting state rest disabled → InOrder state rest disabled

theorem pollsInOrder_of_task (h : ∀ state rest disabled, w.task ≠ .selecting state rest disabled) :
    w.PollsInOrder :=
  fun state rest disabled htask => absurd htask (h state rest disabled)

theorem pollsInOrder_select (h : w.task = .select state) : w.PollsInOrder := by
  intro state' rest disabled htask
  cases h.symm.trans htask
  exact ⟨List.Sublist.refl _, List.not_mem_nil⟩

theorem pollsInOrder_proceed : (w.proceed flow).PollsInOrder := by
  apply pollsInOrder_of_task
  intro state rest disabled htask
  cases flow <;> cases htask

theorem PollStep.pollsInOrder (h : PollStep env w w' read) (hw : w.PollsInOrder) :
    w'.PollsInOrder := by
  cases h with
  | breakOk => exact pollsInOrder_of_task (by simp [World.breakOk, World.finish])
  | round htask =>
      intro state' rest' disabled' htask'
      cases htask'
      exact ⟨List.filter_sublist, (hw _ _ _ htask).answerable⟩
  | pending htask =>
      intro state' rest' disabled' htask'
      cases htask'
      have horder := hw _ _ _ htask
      exact ⟨List.sublist_of_cons_sublist horder.sublist, horder.answerable⟩
  | @mismatch state branch rest disabled w₁ state₁ htask hmismatch hpoll =>
      intro state' rest' disabled' htask'
      cases htask'
      have horder := hw _ _ _ htask
      have hbranches : state₁.branches = state.branches := by
        cases hmismatch <;> rfl
      have hbranch : Branch.socketJoined ≠ branch := by
        rintro rfl
        cases state with
        | joining joining =>
            simp only [World.pollBranch] at hpoll
            split at hpoll <;> cases hpoll
        | _ => cases hpoll
      refine ⟨hbranches ▸ List.sublist_of_cons_sublist horder.sublist, ?_⟩
      simp [hbranch, horder.answerable]
  | ready => exact pollsInOrder_proceed

/-! ## The way to the queue -/

/-- The branch with which the listener frees its push queue: it reads a push, or the answer to its
join. -/
def State.freeing : State → Branch
  | joining _ => .socketJoined
  | _ => .push

/-- The steps that the listener takes until it polls that branch, when nothing else is ready. -/
def Task.stepsToFree : Task → Nat
  | selecting state rest _ => if state.freeing ∈ rest then rest.length else rest.length + 8
  | publishing _ => 8
  | calling _ => 9
  | _ => 0

/-- How much the listener has to do before it frees its queue. A listener that reads the answer to
its join still has the way to its pushes before it. -/
def World.workToFree (w : World) : Nat :=
  20 * (w.stateCommandRx.length + w.sendCommandRx.length)
    + (if w.task.joining?.isSome then 10 else 0) + w.task.stepsToFree

/-- The listener has a push to read, or the answer to its join. -/
inductive Frees (env : Surroundings) (w : World) : Prop
  | joined {joined} : w.task.joined? = some joined → .push ∉ w.task.disabled →
      env.pushes joined.pushRx ≠ [] → Frees env w
  | joining {joining result} : w.task.joining? = some joining →
      env.joined joining.socketJoinedRx = .sent result → Frees env w

/-- What a poll of such a listener comes to. -/
inductive FreeingCase (env : Surroundings) (w w' : World) (read : Option TxId) : Prop
  /-- It has no push queue any more. -/
  | gone : w'.task.joined? = none → w'.task.joining? = none → FreeingCase env w w' read
  | push {joined : Joined} : w.task.joined? = some joined → read = some joined.pushRx →
      w'.workToFree < w.workToFree + 20 → FreeingCase env w w' read
  | nearer : read = none → w'.workToFree < w.workToFree → FreeingCase env w w' read

theorem proceed_stepsToFree (flow : Flow) : (w.proceed flow).task.stepsToFree ≤ 9 := by
  cases flow <;> simp [World.proceed, World.finish, Task.stepsToFree]

theorem proceed_queues (flow : Flow) :
    (w.proceed flow).stateCommandRx.length + (w.proceed flow).sendCommandRx.length ≤
      w.stateCommandRx.length + w.sendCommandRx.length := by
  cases flow <;> simp [World.proceed, World.finish]

/-- Whatever a handler comes to, the listener is as near as its queues are long. -/
theorem proceed_workToFree (flow : Flow) : (w.proceed flow).workToFree ≤
    20 * (w.stateCommandRx.length + w.sendCommandRx.length) + 19 := by
  have hqueues := proceed_queues (w := w) flow
  have hsteps := proceed_stepsToFree (w := w) flow
  unfold World.workToFree
  split <;> omega

theorem le_workToFree : 20 * (w.stateCommandRx.length + w.sendCommandRx.length) ≤ w.workToFree := by
  unfold World.workToFree
  omega

/-- A command that was handled brings the listener nearer. -/
theorem proceed_nearer (h : w'.stateCommandRx.length + w'.sendCommandRx.length <
    w.stateCommandRx.length + w.sendCommandRx.length) :
    (w'.proceed flow).workToFree < w.workToFree := by
  have hafter := proceed_workToFree (w := w') flow
  have hbefore := le_workToFree (w := w)
  omega

theorem stepsToFree_lt {disabled' : List Branch} {state' : State} (hbranch : branch ≠ state.freeing)
    (hstate : state'.freeing = state.freeing) :
    (Task.selecting state' rest disabled').stepsToFree <
      (Task.selecting state (branch :: rest) disabled).stepsToFree := by
  have hmem : state.freeing ∈ branch :: rest ↔ state.freeing ∈ rest := by simp [Ne.symm hbranch]
  simp only [Task.stepsToFree, hstate, hmem]
  split <;> simp

theorem workToFree_lt (hstate : w'.stateCommandRx = w.stateCommandRx)
    (hsend : w'.sendCommandRx = w.sendCommandRx)
    (hjoining : w'.task.joining?.isSome = true → w.task.joining?.isSome = true)
    (hsteps : w'.task.stepsToFree < w.task.stepsToFree) : w'.workToFree < w.workToFree := by
  simp only [World.workToFree, hstate, hsend]
  cases hw' : w'.task.joining?.isSome with
  | true =>
      simp only [hjoining hw', ↓reduceIte]
      omega
  | false =>
      simp only [Bool.false_eq_true, ↓reduceIte]
      split <;> omega

/-- The pushes come before the broadcasts. -/
theorem InOrder.push_not_mem {joined : Joined}
    (h : InOrder (.joined joined) (.broadcast :: rest) disabled) : .push ∉ rest := by
  intro hmem
  have hsublist : [Branch.broadcast, .push].Sublist
      [.shutdown, .connectivity, .left, .stateCommand, .sendCommand, .push, .broadcast] :=
    (List.Sublist.cons_cons _ (List.singleton_sublist.mpr hmem)).trans h.sublist
  exact absurd hsublist (by decide)

@[simp] theorem joining?_selecting : (Task.selecting state rest disabled).joining? = state.joining? := by
  cases state <;> rfl

@[simp] theorem joining?_publishing : (Task.publishing state).joining? = state.joining? := by
  cases state <;> rfl

theorem joining?_of_joiningRx {task : Task} (h : task.joiningRx = none) : task.joining? = none :=
  Option.map_eq_none_iff.mp h

/-- The states in which a listener waits at its `select!` for what frees the queue. -/
inductive Freeable (env : Surroundings) (disabled : List Branch) : State → Prop
  | joined {joined} : .push ∉ disabled → env.pushes joined.pushRx ≠ [] →
      Freeable env disabled (.joined joined)
  | joining {joining result} : env.joined joining.socketJoinedRx = .sent result →
      Freeable env disabled (.joining joining)

theorem Frees.freeable (h : Frees env w) (htask : w.task = .selecting state rest disabled) :
    Freeable env disabled state := by
  cases h with
  | joined hj hpush hpushes =>
      rw [htask, joined?_selecting] at hj
      rw [htask] at hpush
      cases state <;> cases hj
      exact .joined hpush hpushes
  | joining hj hresult =>
      rw [htask, joining?_selecting] at hj
      cases state <;> cases hj
      exact .joining hresult

/-- The branch that frees the queue is ready when it is polled. -/
theorem Freeable.ready (h : Freeable env disabled state) (hbranch : branch = state.freeing) :
    ∃ w' flow, w.pollBranch env state branch = .ready w' flow := by
  subst hbranch
  cases h with
  | @joined joined _ hpushes =>
      simp only [State.freeing, World.pollBranch]
      split
      · exact ⟨_, _, rfl⟩
      · exact absurd ‹_› hpushes
  | joining hresult =>
      simp only [State.freeing, World.pollBranch, hresult]
      exact ⟨_, _, rfl⟩

theorem Freeable.mem_branches (h : Freeable env disabled state) (horder : InOrder state rest disabled) :
    state.freeing ∈ state.branches.filter (fun branch => branch ∉ disabled) ∧
      state.branches.length ≤ 7 := by
  cases h with
  | joined hpush => simp [State.freeing, State.branches, hpush]
  | joining => simp [State.freeing, State.branches, horder.answerable]

theorem proceed_next_workToFree (effects : List Effect) (hjoining : state.joining? = none) :
    (w.proceed (.next state effects)).workToFree =
      20 * (w.stateCommandRx.length + w.sendCommandRx.length) + 8 := by
  simp [World.workToFree, World.proceed, hjoining, Task.stepsToFree]

/-- What a branch that is ready does for the queue. -/
theorem BranchReady.freeing (h : BranchReady env w state branch w' flow)
    (htask : w.task = .selecting state (branch :: rest) disabled)
    (horder : InOrder state (branch :: rest) disabled) (hfrees : Freeable env disabled state) :
    FreeingCase env w (w'.proceed flow) (World.pushRead state branch) := by
  have gone : flow.joined? = none → flow.joining? = none →
      FreeingCase env w (w'.proceed flow) (World.pushRead state branch) := by
    intro hjoined hjoining
    refine .gone (proceed_joined?.trans hjoined) (joining?_of_joiningRx ?_)
    rw [proceed_joiningRx, hjoining]
    rfl
  cases h with
  | shutdown => cases hfrees <;> exact gone rfl rfl
  | connectivity => exact gone connectivityChanged_joined? connectivityChanged_joining?
  | @socketJoined joining result =>
      rcases result with error | receivers
      · cases error <;> exact gone rfl rfl
      · refine .nearer rfl ?_
        rw [proceed_next_workToFree _ rfl, World.workToFree, htask]
        simp only [joining?_selecting, State.joining?, Option.isSome_some, ↓reduceIte]
        omega
  | socketJoinedClosed hclosed =>
      cases hfrees with
      | joining hresult => cases hclosed.symm.trans hresult
  | left => exact gone rfl rfl
  | socketLeft | sleep => cases hfrees
  | stateCommand hrx =>
      refine .nearer (by cases hfrees <;> rfl) ?_
      apply proceed_nearer
      simp [hrx]
  | sendCommand hrx =>
      apply FreeingCase.nearer rfl
      apply proceed_nearer
      simp [hrx]
  | @push joined push =>
      refine .push (by rw [htask]; rfl) rfl ?_
      have hbefore := le_workToFree (w := w)
      refine Nat.lt_of_le_of_lt (proceed_workToFree _) ?_
      omega
  | broadcast =>
      refine .nearer rfl ?_
      rw [proceed_next_workToFree _ rfl]
      have hpush := horder.push_not_mem
      simp [World.workToFree, htask, State.joining?, Task.stepsToFree, State.freeing, hpush]

theorem PollStep.freeing (h : PollStep env w w' read) (horder : w.PollsInOrder)
    (hfrees : Frees env w) : FreeingCase env w w' read := by
  cases h with
  | breakOk => exact .gone rfl rfl
  | @round state disabled htask =>
      have hfreeable := hfrees.freeable htask
      obtain ⟨hmem, hlength⟩ := hfreeable.mem_branches (horder _ _ _ htask)
      refine .nearer rfl (workToFree_lt rfl rfl (by rw [htask]; simp) ?_)
      have hle := List.length_filter_le (fun branch => decide (branch ∉ disabled)) state.branches
      rw [htask, Task.stepsToFree, Task.stepsToFree, if_pos hmem, if_neg List.not_mem_nil]
      simp only [List.length_nil]
      omega
  | @pending state branch rest disabled htask hpoll =>
      have hbranch : branch ≠ state.freeing := by
        intro heq
        obtain ⟨w₁, flow, hready⟩ := (hfrees.freeable htask).ready (w := w) heq
        cases hready.symm.trans hpoll
      refine .nearer rfl (workToFree_lt rfl rfl (by rw [htask]; simp) ?_)
      rw [htask]
      exact stepsToFree_lt hbranch rfl
  | @mismatch state branch rest disabled w₁ state' htask hmismatch hpoll =>
      have hbranch : branch ≠ state.freeing := by
        intro heq
        obtain ⟨w₁, flow, hready⟩ := (hfrees.freeable htask).ready (w := w) heq
        cases hready.symm.trans hpoll
      cases hmismatch with
      | lagged | closed =>
          refine .nearer rfl (workToFree_lt rfl rfl (by rw [htask]; simp) ?_)
          rw [htask]
          exact stepsToFree_lt hbranch rfl
      | broadcastLagged =>
          refine .nearer rfl (workToFree_lt rfl rfl (by rw [htask]; simp [State.joining?]) ?_)
          rw [htask]
          exact stepsToFree_lt hbranch rfl
  | ready htask hready => exact hready.freeing htask (horder _ _ _ htask) (hfrees.freeable htask)

end PhoenixChannels.Channel

namespace PhoenixChannels

open Machine

/-! ## The member for which a push is handed over -/

namespace Socket

variable {strategy : Option (Nat → Duration)} {ok : World → Label → Prop} {ls : List Label}
variable {w : World} {key : JoinKey} {trace : List Entry} {i : Nat} {tx : TxId} {push : Push}
variable {connected : Connected}

/-- Since a channel joined, the connection is the same. -/
theorem joinedAt_same (h : joinedAt key trace = some i) :
    ∀ e ∈ trace.drop (i + 1), e.broadcastsConnected = false := by
  induction trace using List.reverseRecOn with
  | nil => cases h
  | append_singleton trace e ih =>
      rw [joinedAt_append] at h
      split at h
      · cases h
      rename_i hconnected
      split at h
      · cases h
        simp
      split at h
      · cases h
      · have hi := joinedAt_lt h
        intro f hf
        rw [List.drop_append_of_le_length hi] at hf
        rcases List.mem_append.mp hf with hf | hf
        · exact ih h f hf
        · obtain rfl := List.mem_singleton.mp hf
          simpa using hconnected

/-- A push that is handed over goes to the channel that its key names. -/
theorem joinedAt_of_pushing (h : Run (machine strategy) ok World.init ls w)
    (htask : w.task = .pushing connected tx push) : joinedAt push.key w.trace = some tx := by
  have hpushTx : connected.pushTx push = some tx := by
    refine h.invariant (I := fun w => ∀ connected tx push, w.task = .pushing connected tx push →
      connected.pushTx push = some tx) ?_ ?_ connected tx push htask
    · intro connected tx push htask
      cases htask
    · intro w label w' ih _ hs connected tx push htask
      cases label with
      | elapse =>
          cases hs
          exact ih connected tx push htask
      | select input =>
          obtain ⟨_, _, _, _, _, hpushTx, _⟩ := pushing_of_select hs htask
          exact hpushTx
      | pushed | publish =>
          simp only [machine, World.step] at hs
          split at hs <;> cases hs
          cases htask
  have hknown : MembersKnown w.trace connected := membersKnown_of_run h (by rw [htask]; rfl)
  rw [Connected.pushTx, hknown.senders] at hpushTx
  simpa [Function.comp_def] using hpushTx

end Socket

namespace System

variable {strategy : Option (Nat → Duration)} {ok : System → Label → Prop} {ls : List Label}
variable {s s' : System} {label : Label} {c c' : JoinReference} {w w' : Channel.World} {tx : TxId}
variable {joined : Channel.Joined}

theorem pollsInOrder_of_run (h : Run (machine strategy) ok init ls s)
    (hw : s.channels.lookup c = some w) : w.PollsInOrder := by
  refine channel_invariant (I := fun _ w => w.PollsInOrder) ?_ ?_ h hw
  · intro c listener state seen _
    exact Channel.pollsInOrder_select rfl
  · intro s s' c w label w' hw hstep
    cases hstep with
    | user | stateCommand | sendCommand => exact hw
    | poll hpoll => exact hpoll.pollsInOrder hw
    | forward => exact Channel.pollsInOrder_of_task (by simp)
    | fail => exact Channel.pollsInOrder_proceed
    | publish => exact Channel.pollsInOrder_select rfl

namespace JoinedOn

theorem pushOpen (h : JoinedOn s c w joined) (hrun : Run (machine strategy) ok init ls s) :
    s.pushClosed joined.pushRx = false := by
  obtain ⟨ks, hks⟩ := socket_run hrun
  obtain ⟨connected, hconnected⟩ := Option.isSome_iff_exists.mp h.connected
  have hsenders : connected.joinedChannelTxs ⟨w.listener.topic, c⟩ =
      some ⟨joined.pushRx, joined.pushRx⟩ := by
    rw [(Socket.membersKnown_of_run hks hconnected).senders, h.joinedAt hrun]
    rfl
  have hmem := NestedMap.mem_values.mpr ⟨_, _, hsenders⟩
  simp only [pushClosed, joinedChannelSenders, hconnected, List.all_eq_false]
  exact ⟨_, hmem, by simp⟩

/-- The branch of the pushes is disabled only when its channel is closed. -/
theorem pushEnabled_poll {read : Option TxId} (h : JoinedOn s c w joined)
    (hrun : Run (machine strategy) ok init ls s)
    (hpoll : Channel.PollStep s.surroundings w w' read) (hw : .push ∉ w.task.disabled) :
    .push ∉ w'.task.disabled := by
  cases hpoll with
  | breakOk => exact List.not_mem_nil
  | round htask | pending htask =>
      rw [htask] at hw
      exact hw
  | @mismatch state branch rest disabled w₁ state' htask hmismatch hpoll =>
      have hmember := h.member
      rw [htask] at hw hmember
      rw [Channel.joined?_selecting] at hmember
      have hbranch : branch ≠ .push := by
        rintro rfl
        cases state <;> cases hmember
        simp only [Channel.World.pollBranch] at hpoll
        split at hpoll
        · cases hpoll
        · have hopen : s.surroundings.pushClosed joined.pushRx = false := h.pushOpen hrun
          rw [hopen] at hpoll
          cases hpoll
      exact List.not_mem_cons_of_ne_of_not_mem (Ne.symm hbranch) hw
  | @ready state branch rest disabled w₁ flow => cases flow <;> exact List.not_mem_nil

end JoinedOn

theorem pushEnabled_of_run (h : Run (machine strategy) ok init ls s)
    (hjoined : JoinedOn s c w joined) : .push ∉ w.task.disabled := by
  induction h generalizing w joined with
  | nil =>
      have hw := hjoined.channel
      rw [lookup_init] at hw
      cases hw
  | @snoc ls s label s' hrun hok hs ih =>
      have hstep := step_cases hs
      obtain ⟨w₀, hw₀, ⟨hlabel, hj⟩ | ⟨rfl, hcase⟩⟩ :=
        hstep.joined_cases hrun hjoined.channel hjoined.member
      · have hbefore := ih (hjoined.before hrun hstep hw₀ hj rfl)
        cases hstep.channel_cases hjoined.channel with
        | kept hw => rwa [Option.some.inj (hw.symm.trans hw₀)]
        | stepped hw hchannel =>
            cases Option.some.inj (hw.symm.trans hw₀)
            cases hchannel with
            | user | stateCommand | sendCommand => exact hbefore
            | poll => exact absurd rfl hlabel
            | forward | publish => exact List.not_mem_nil
            | @fail call flow => cases flow <;> exact List.not_mem_nil
        | spawned heffect hspawn =>
            rw [hspawn]
            exact List.not_mem_nil
      · cases hstep with
        | user hlabel => cases hlabel
        | @poll c w w' read hw hpoll =>
            have hw' := hjoined.channel
            rw [lookup_setChannel, if_pos rfl] at hw'
            cases hw'
            cases Option.some.inj (hw.symm.trans hw₀)
            cases hcase with
            | kept _ hj =>
                have hbefore := hjoined.before hrun (.poll hw hpoll) hw hj rfl
                exact hbefore.pushEnabled_poll hrun hpoll (ih hbefore)
            | read _ hj hjoined' =>
                have hbefore := hjoined.before hrun (.poll hw hpoll) hw hj (by rw [hjoined'])
                exact hbefore.pushEnabled_poll hrun hpoll (ih hbefore)
            | answered htask =>
                cases hpoll with
                | breakOk => exact List.not_mem_nil
                | round htask' => cases htask.symm.trans htask'
                | pending htask' =>
                    cases htask.symm.trans htask'
                    cases hjoined.member
                | mismatch htask' hmismatch =>
                    cases htask.symm.trans htask'
                    cases hmismatch
                    cases hjoined.member
                | @ready state branch rest disabled w₁ flow => cases flow <;> exact List.not_mem_nil

theorem joined_of_visible {rx : TxId} {result : Except Socket.JoinError JoinedChannelReceivers}
    (h : .joinedTx rx result ∈ s.visible) : ∃ answer, s.joined rx = .sent answer := by
  unfold System.joined oneshot
  split
  · exact ⟨_, rfl⟩
  · rename_i hnone
    have hmem := List.findSome?_eq_none_iff.mp hnone _ h
    simp at hmem

/-! ## Waiting for one listener -/

/-- The socket listener waits until the listener `c` frees its push queue. -/
structure WaitsFor (s : System) (c : JoinReference) (tx : TxId) (w : Channel.World) : Prop where
  listener : s.channels.lookup c = some w
  pushing : ∃ connected push, s.socket.task = .pushing connected tx push
  holds : s.holdsPushRx w tx = true
  full : pushCapacity ≤ (s.pushRx tx).length

namespace WaitsFor

theorem holdsQueue (h : WaitsFor s c tx w) : s.Holds c tx := by
  rcases holdsPushRx_iff.mp h.holds with ⟨joined, hj, htx⟩ | ⟨rx, receivers, hrx, hmem, htx⟩
  · exact ⟨_, w, h.listener, .inl ⟨joined, hj, htx, rfl⟩⟩
  · exact ⟨_, w, h.listener, .inr ⟨rx, receivers, hrx, hmem, htx, rfl⟩⟩

/-- The listener is the one that the push is for. -/
theorem key (h : WaitsFor s c tx w) (hrun : Run (machine strategy) ok init ls s)
    {connected : Socket.Connected} {push : Push} (htask : s.socket.task = .pushing connected tx push) :
    push.key = ⟨w.listener.topic, c⟩ := by
  obtain ⟨ks, hks⟩ := socket_run hrun
  have hat := Socket.joinedAt_of_pushing hks htask
  have hsettled := settled_of_run hrun h.listener h.holdsQueue
  exact Socket.joinedAt_key hat (hsettled.current (Socket.joinedAt_same hat))

theorem frees (h : WaitsFor s c tx w) (hrun : Run (machine strategy) ok init ls s) :
    Channel.Frees s.surroundings w := by
  obtain ⟨connected, push, htask⟩ := h.pushing
  obtain ⟨ks, hks⟩ := socket_run hrun
  rcases holdsPushRx_iff.mp h.holds with ⟨joined, hj, rfl⟩ | ⟨rx, receivers, hrx, hmem, htx⟩
  · have hjoined : JoinedOn s c w joined := by
      refine ⟨h.listener, hj, by rw [htask]; rfl, ?_⟩
      exact Socket.joinedAt_same (Socket.joinedAt_of_pushing hks htask)
    refine .joined hj (pushEnabled_of_run hrun hjoined) ?_
    intro hnil
    have hfull := h.full
    have hempty : s.pushRx joined.pushRx = [] := hnil
    rw [hempty] at hfull
    cases hfull
  · obtain ⟨joining, hjoining, rfl⟩ := Option.map_eq_some_iff.mp hrx
    -- all effects are delivered while a push is handed over, so that the answer is there
    have hvisible : s.visible = s.socket.effects := by
      rw [visible, delivered_of_run hrun (by simp [htask]), List.take_length]
    obtain ⟨result, hresult⟩ := joined_of_visible (hvisible ▸ hmem)
    exact .joining hjoining hresult

end WaitsFor

/-- How much the listener `c` has to do before it frees its push queue. -/
def freeingLeft (c : JoinReference) (tx : TxId) (s : System) : Nat :=
  match s.channels.lookup c with
  | some w => 20 * (s.pushRx tx).length + w.workToFree
  | none => 0

theorem freeingLeft_eq (hw : s.channels.lookup c = some w) :
    s.freeingLeft c tx = 20 * (s.pushRx tx).length + w.workToFree := by
  simp only [freeingLeft, hw]

/-- A step of the listener `c` by which it frees its queue or comes nearer to it. -/
def NearsFreeing (strategy : Option (Nat → Duration)) (c : JoinReference) (tx : TxId) (s : System) :
    Prop :=
  ∃ l s', l.ofListener c = true ∧ (machine strategy).step s l = some s' ∧
    ∀ w', WaitsFor s' c tx w' → s'.freeingLeft c tx < s.freeingLeft c tx

namespace WaitsFor

theorem nears_publishing {state : Channel.State} (h : WaitsFor s c tx w)
    (hfrees : Channel.Frees s.surroundings w) (htask : w.task = .publishing state) :
    NearsFreeing strategy c tx s := by
  have hs : (machine strategy).step s (.publishChannel c) =
      some (s.setChannel c { w with task := .select state, status := state.status }) := by
    simp [machine, System.step, publishChannelStep, h.listener, Channel.World.publish, htask]
  have hlt : Channel.World.workToFree { w with task := .select state, status := state.status } <
      w.workToFree := by
    refine Channel.workToFree_lt rfl rfl (by rw [htask]; simp [Channel.Task.select]) ?_
    rw [htask]
    cases hfrees with
    | joined hj | joining hj =>
        rw [htask] at hj
        cases state <;> cases hj
        simp [Channel.Task.select, Channel.Task.stepsToFree, Channel.State.freeing,
          Channel.State.branches]
  refine ⟨_, _, by simp [Label.ofListener], hs, fun w' _ => ?_⟩
  rw [freeingLeft_eq h.listener, freeingLeft_eq (by rw [lookup_setChannel, if_pos rfl])]
  exact Nat.add_lt_add_left hlt _

theorem nears_calling {call : Channel.SocketCall} (h : WaitsFor s c tx w)
    (hfrees : Channel.Frees s.surroundings w) (htask : w.task = .calling call)
    (hroom : s.queued call.sends < socketCapacity) : NearsFreeing strategy c tx s := by
  obtain ⟨connected, push, hpushing⟩ := h.pushing
  have hrunning : s.socket.task.isRunning = true := by rw [hpushing]; rfl
  have hjoining : (Channel.Task.publishing (call.sent s.fresh).1).joining?.isSome = true →
      w.task.joining?.isSome = true := by
    cases hfrees with
    | joined hj | joining hj =>
        rw [htask] at hj
        cases call <;> cases hj <;> simp [Channel.SocketCall.sent, Channel.State.joining?]
  have hlt : Channel.World.workToFree { w with
      task := .publishing (call.sent s.fresh).1
      effects := w.effects ++ (call.sent s.fresh).2 } < w.workToFree := by
    refine Channel.workToFree_lt rfl rfl hjoining ?_
    rw [htask]
    exact Nat.lt_succ_self 8
  cases hcommand : call.command w.listener s.fresh with
  | inl command =>
      have hsends : call.sends = false := by
        cases call <;> first | rfl | cases hcommand
      rw [hsends] at hroom
      have hs : (machine strategy).step s (.forward c) = some { s.resumed c w call with
          channelStateCommandRx := s.channelStateCommandRx ++ [command] } := by
        have hlength : s.channelStateCommandRx.length < socketCapacity := hroom
        simp [machine, System.step, forwardStep, h.listener, htask, hrunning, hcommand, hlength,
          resumed, setChannel]
      refine ⟨_, _, by simp [Label.ofListener], hs, fun w' _ => ?_⟩
      rw [freeingLeft_eq h.listener, freeingLeft_eq (by simp [resumed]; rfl)]
      exact Nat.add_lt_add_left hlt _
  | inr command =>
      have hsends : call.sends = true := by
        cases call <;> first | rfl | cases hcommand
      rw [hsends] at hroom
      have hs : (machine strategy).step s (.forward c) = some { s.resumed c w call with
          channelSendCommandRx := s.channelSendCommandRx ++ [command] } := by
        have hlength : s.channelSendCommandRx.length < socketCapacity := hroom
        simp [machine, System.step, forwardStep, h.listener, htask, hrunning, hcommand, hlength,
          resumed, setChannel]
      refine ⟨_, _, by simp [Label.ofListener], hs, fun w' _ => ?_⟩
      rw [freeingLeft_eq h.listener, freeingLeft_eq (by simp [resumed]; rfl)]
      exact Nat.add_lt_add_left hlt _

theorem nears_selecting {state : Channel.State} {rest disabled : List Channel.Branch}
    (h : WaitsFor s c tx w) (hrun : Run (machine strategy) ok init ls s)
    (htask : w.task = .selecting state rest disabled) : NearsFreeing strategy c tx s := by
  obtain ⟨w', read, hpoll⟩ := Channel.poll_isSome s.surroundings htask
  have hs : (machine strategy).step s (.poll c) = some ((s.popPush read).setChannel c w') := by
    simp [machine, System.step, pollStep, h.listener, hpoll]
  have hw' : ((s.popPush read).setChannel c w').channels.lookup c = some w' := by
    rw [lookup_setChannel, if_pos rfl]
  refine ⟨_, _, by simp [Label.ofListener], hs, fun w'' hwaits => ?_⟩
  rw [freeingLeft_eq h.listener, freeingLeft_eq hw']
  cases Option.some.inj (hw'.symm.trans hwaits.listener)
  cases (Channel.poll_cases hpoll).freeing (pollsInOrder_of_run hrun h.listener) (h.frees hrun) with
  | gone hjoined hjoining =>
      have hholds := hwaits.holds
      rw [holdsPushRx, hjoined, hjoining] at hholds
      cases hholds
  | nearer hread hlt =>
      subst hread
      exact Nat.add_lt_add_left hlt _
  | @push joined hj hread hlt =>
      subst hread
      have htx : joined.pushRx = tx := by
        rcases holdsPushRx_iff.mp h.holds with ⟨joined', hj', htx⟩ | ⟨rx, receivers, hrx, _⟩
        · cases hj.symm.trans hj'
          exact htx
        · rw [Channel.joiningRx_of_joined hj] at hrx
          cases hrx
      have hfull := h.full
      simp only [popPush, setChannel, htx, Function.update_self, List.length_tail]
      unfold pushCapacity at hfull
      omega

/-- The listener comes nearer to its queue, or it waits for the socket listener in its turn. -/
theorem nears (h : WaitsFor s c tx w) (hrun : Run (machine strategy) ok init ls s) :
    ¬ NoCyclicWait s ∨ NearsFreeing strategy c tx s := by
  have hfrees := h.frees hrun
  cases htask : w.task with
  | publishing => exact .inr (h.nears_publishing hfrees htask)
  | selecting => exact .inr (h.nears_selecting hrun htask)
  | calling call =>
      by_cases hroom : s.queued call.sends < socketCapacity
      · exact .inr (h.nears_calling hfrees htask hroom)
      · left
        intro hnone
        obtain ⟨connected, push, hpushing⟩ := h.pushing
        have hpush : s.waitsOnPush w = true := by
          refine waitsOnPush_iff.mpr ⟨connected, tx, push, hpushing, ?_⟩
          simp [holdsFull, h.holds, h.full]
        have hsocket : s.waitsOnSocket w = true :=
          waitsOnSocket_iff.mpr ⟨call, by rw [htask]; rfl, Nat.le_of_not_lt hroom⟩
        rw [hnone c w h.listener hpush] at hsocket
        cases hsocket
  | exited | panicked =>
      cases hfrees with
      | joined hj | joining hj =>
          rw [htask] at hj
          cases hj

/-- The listener `c` frees its queue by itself, unless it waits for the socket listener in its
turn. -/
theorem freed (h : WaitsFor s c tx w) (hrun : Run (machine strategy) Free init ls s) :
    ∃ ks t, Run (machine strategy) (fun _ l => l.ofListener c = true) s ks t ∧
      (¬ NoCyclicWait t ∨ ∀ w, ¬ WaitsFor t c tx w) := by
  refine exists_run_of_rank
    (I := fun s => (∃ ls, Run (machine strategy) Free init ls s) ∧ ∃ w, WaitsFor s c tx w)
    (freeingLeft c tx) ?_ ⟨⟨ls, hrun⟩, w, h⟩
  rintro s ⟨⟨ls, hrun⟩, w, h⟩
  rcases h.nears hrun with hcyclic | ⟨l, s', hl, hs, hlt⟩
  · exact .inl (.inl hcyclic)
  · refine .inr ⟨l, s', hl, hs, ?_⟩
    by_cases hwaits : ∃ w', WaitsFor s' c tx w'
    · obtain ⟨w', hw'⟩ := hwaits
      exact .inr ⟨⟨⟨_, hrun.snoc trivial hs⟩, w', hw'⟩, hlt w' hw'⟩
    · exact .inl (.inr (fun w' hw' => hwaits ⟨w', hw'⟩))

end WaitsFor

end System

end PhoenixChannels
