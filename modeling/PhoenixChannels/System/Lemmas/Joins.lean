import PhoenixChannels.Socket.Lemmas.Joins
import PhoenixChannels.System.Lemmas.Commands

/-!
# Joins of the client

The `oneshot` channel that a joining channel listener waits on, from the queue of the socket to the
answer.
-/

namespace PhoenixChannels

/-! ## A channel listener that joins -/

namespace Channel

def State.awaitedJoin : State → Option TxId
  | joining j => some j.socketJoinedRx
  | _ => none

/-- The `oneshot` channel on which the listener waits for the answer to its join. -/
def Task.awaitedJoin : Task → Option TxId
  | selecting state _ _ | publishing state => state.awaitedJoin
  | _ => none

/-- The error with which the listener ended. -/
def Task.error? : Task → Option ShutdownError
  | exited (.error error) => some error
  | _ => none

variable {env : Surroundings} {w w' : World} {state : State} {branch : Branch} {flow : Flow}
variable {read : Option TxId} {now : Instant} {tx : TxId}

theorem awaitedJoin_selecting {rest disabled : List Branch} :
    (Task.selecting state rest disabled).awaitedJoin =
      (Task.selecting state rest disabled).joiningRx := by cases state <;> rfl

theorem joiningRx_of_awaitedJoin {task : Task} (h : task.awaitedJoin = some tx) :
    task.joiningRx = some tx := by
  cases task with
  | selecting state => rwa [← awaitedJoin_selecting]
  | publishing state => cases state <;> exact h
  | _ => cases h

theorem PollStep.awaitedJoin (h : PollStep env w w' read) (hw : w'.task.awaitedJoin = some tx) :
    w.task.awaitedJoin = some tx := by
  have hrx := h.joiningRx (joiningRx_of_awaitedJoin hw)
  cases h with
  | breakOk htask | round htask | pending htask | mismatch htask | ready htask =>
      rw [htask] at hrx ⊢
      rwa [awaitedJoin_selecting]

theorem exited_of_error {task : Task} {error : ShutdownError} (h : task.error? = some error) :
    task = .exited (.error error) := by
  cases task with
  | exited result =>
      cases result <;> cases h
      rfl
  | _ => cases h

theorem proceed_error? {error : ShutdownError} (h : (w.proceed flow).task.error? = some error) :
    ∃ effects, flow = .exit error effects := by
  cases flow <;> cases h
  exact ⟨_, rfl⟩

theorem updateState_ne_exit {command : StateCommand} {error : ShutdownError}
    {effects : List Effect} : updateState now state command ≠ .exit error effects := by
  intro h
  cases command with
  | join createdAt timeout joinedTx =>
      cases state <;>
        simp only [updateState, join, socketJoinIfNotTimedOut, socketJoin, reduceCtorEq] at h <;>
        split at h <;> cases h
  | leave tx => cases state <;> cases h

theorem BranchReady.exited {error : ShutdownError} (h : BranchReady env w state branch w' flow)
    (hflow : ∃ effects, flow = .exit error effects) :
    ∃ joining, state = .joining joining ∧ branch = .socketJoined ∧
      env.joined joining.socketJoinedRx = .closed := by
  obtain ⟨effects, hflow⟩ := hflow
  cases h with
  | socketJoinedClosed hclosed => exact ⟨_, rfl, rfl, hclosed⟩
  | stateCommand => exact absurd hflow updateState_ne_exit
  | sendCommand hrx =>
      rename_i joined command rest
      cases command <;> cases hflow
  | _ => cases hflow

end Channel

def ChannelStateCommand.join? : ChannelStateCommand → Option Join
  | join j => some j
  | leave _ => none

namespace System

open Machine

variable {strategy : Option (Nat → Duration)} {ok : System → Label → Prop} {ls : List Label}
variable {s s' : System} {label : Label} {c : JoinReference} {w w' : Channel.World} {tx : TxId}

/-! ## The joins of a client -/

/-- The joins in the queue of the socket listener. -/
def queuedJoins (s : System) : List Join :=
  s.channelStateCommandRx.filterMap fun
    | .join j => some j
    | _ => none

/-- All joins that were sent to the socket listener, in order. -/
def joins (s : System) : List Join :=
  (Socket.joinsTaken s.socket.trace).map Prod.fst ++ s.queuedJoins

/-- The join that a suspended handler sends. -/
def sentJoin (s : System) (w : Channel.World) : Channel.SocketCall → Option Join
  | .join _ deadline _ _ =>
      some ⟨w.listener.topic, w.listener.joinReference, w.listener.payload, deadline, s.fresh⟩
  | _ => none

theorem Receive.joins {event : SocketEvent} {input : Socket.Input} {taken : System}
    (h : Receive s event input taken) :
    (input.join?.map Prod.fst).toList ++ taken.queuedJoins = s.queuedJoins := by
  cases h with
  | @channelStateCommand uuid sent command rest hrx =>
      simp only [queuedJoins, hrx]
      cases command with
      | join j => cases sent <;> rfl
      | leave l => rfl
  | _ => rfl

/-! ## The property and its condition -/

/-- What becomes of the joins while the socket listener runs. -/
structure JoinsAnswered (s : System) : Prop where
  /-- No join gets two results. -/
  once : (Socket.answered s.socket.effects).Nodup
  /-- A join that the socket listener took, and whose channel waits for it, has its result, or is
  pending with its timer. -/
  answered {c : JoinReference} {w : Channel.World} {join : Join} {sent : Bool} :
    s.channels.lookup c = some w → w.task.awaitedJoin = some join.joinedTx →
    (join, sent) ∈ Socket.joinsTaken s.socket.trace →
    join.joinedTx ∈ Socket.answered s.socket.effects ∨
      ∃ connected, s.socket.task.connection = some connected ∧
        connected.pendingJoin join.key = some join ∧
        ⟨join.deadline, join.key, join.joinedTx⟩ ∈ connected.joinTimeouts
  /-- No channel that joins is left with a sender that was dropped. -/
  notDropped {c : JoinReference} {w : Channel.World} {tx : TxId} :
    s.channels.lookup c = some w → w.task.awaitedJoin = some tx → s.joined tx ≠ .closed
  /-- No channel listener has ended with an error. -/
  notEnded {c : JoinReference} {w : Channel.World} :
    s.channels.lookup c = some w → w.task.error? = none

/-- A write fails only for a join that no channel waits for. -/
def joinsWritten (s : System) : Label → Bool
  | .select (.channelStateCommand _ (.error _)) =>
      match s.channelStateCommandRx with
      | .join j :: _ => (Dict.values s.channels).all (fun w => w.task.awaitedJoin != some j.joinedTx)
      | _ => true
  | _ => true

/-! ## The invariant -/

/-- The joins that channels wait for, among all that were sent. -/
structure JoinsSent (s : System) : Prop where
  distinct : (s.joins.map Join.joinedTx).Nodup
  old : ∀ j ∈ s.joins, j.joinedTx < s.fresh
  /-- A channel waits for the last join that it sent. -/
  last {c : JoinReference} {w : Channel.World} {tx : TxId} : s.channels.lookup c = some w →
    w.task.awaitedJoin = some tx →
    (s.joins.filter (fun j => j.joinReference = c)).getLast?.map Join.joinedTx = some tx

/-- How a listener comes to wait for a join. -/
inductive AwaitCase (s : System) (c : JoinReference) (label : Label) (tx : TxId) : Prop
  | waits {w : Channel.World} : s.channels.lookup c = some w → w.task.awaitedJoin = some tx →
      AwaitCase s c label tx
  | sent {w : Channel.World} {call : Channel.SocketCall} {j : Join} : label = .forward c →
      s.channels.lookup c = some w → w.task = .calling call → s.sentJoin w call = some j →
      tx = s.fresh → AwaitCase s c label tx

theorem SystemStep.await_cases (h : SystemStep strategy s label s')
    (hrun : Run (machine strategy) ok init ls s) (hrunning : s'.socket.task.isRunning = true)
    (hw' : s'.channels.lookup c = some w')
    (hawaits : w'.task.awaitedJoin = some tx) : AwaitCase s c label tx := by
  cases h.channel_cases hw' with
  | kept hw => exact .waits hw hawaits
  | stepped hw hstep =>
      cases hstep with
      | user | stateCommand | sendCommand => exact .waits hw hawaits
      | poll hpoll => exact .waits hw (hpoll.awaitedJoin hawaits)
      | @forward call htask =>
          cases call with
          | join state deadline rejoin txs =>
              exact .sent rfl hw htask rfl (Option.some.inj hawaits).symm
          | _ => cases hawaits
      | fail htask hdead =>
          rw [h.running hrunning] at hdead
          cases hdead
      | publish htask =>
          refine .waits hw ?_
          rw [htask]
          exact hawaits
  | spawned heffect hspawn =>
      subst hspawn
      obtain ⟨before, rfl⟩ := spawned_state hrun heffect
      cases before <;> cases hawaits

theorem joinsTaken_step (h : SystemStep strategy s label s') {x : Join × Bool}
    (hx : x ∈ Socket.joinsTaken s'.socket.trace) :
    x ∈ Socket.joinsTaken s.socket.trace ∨ ∃ event input taken, label = .select event ∧
      Receive s event input taken ∧ input.join? = some x := by
  cases h.trace_cases with
  | kept htrace => exact .inl (htrace ▸ hx)
  | selected hlabel hreceive htrace hinput =>
      rw [htrace, Socket.joinsTaken_append, List.mem_append, Option.mem_toList, hinput] at hx
      exact hx.imp_right fun hx => ⟨_, _, _, hlabel, hreceive, hx⟩

/-- A join whose write fails is one that no channel waits for. -/
theorem not_awaited_of_unwritten {event : SocketEvent} {input : Socket.Input} {taken : System}
    {j : Join} (hok : joinsWritten s (.select event) = true)
    (hreceive : Receive s event input taken) (hj : input.join? = some (j, false))
    (hw : s.channels.lookup c = some w) : w.task.awaitedJoin ≠ some j.joinedTx := by
  cases hreceive with
  | @channelStateCommand uuid sent command rest hrx =>
      cases command with
      | leave l => cases hj
      | join j' =>
          cases sent with
          | ok u => cases hj
          | error e =>
              cases hj
              simp only [joinsWritten, hrx, List.all_eq_true, bne_iff_ne, ne_eq] at hok
              exact hok w (Dict.mem_values.mpr ⟨c, hw⟩)
  | _ => cases hj

theorem joins_eq (s : System) : s.joins = s.commands.filterMap ChannelStateCommand.join? := by
  simp only [joins, commands, queuedJoins, Socket.joinsTaken, Socket.commandsTaken,
    List.filterMap_append, List.map_filterMap, List.filterMap_filterMap]
  congr 1
  · refine List.filterMap_congr fun e _ => ?_
    cases e.input with
    | channelStateCommand command uuid sent => cases command <;> cases sent <;> rfl
    | _ => rfl
  · refine List.filterMap_congr fun command _ => ?_
    cases command <;> rfl

theorem joinTxs_sublist (commands : List ChannelStateCommand) :
    ((commands.filterMap ChannelStateCommand.join?).map Join.joinedTx).Sublist
      (commands.map ChannelStateCommand.tx) := by
  induction commands with
  | nil => exact List.Sublist.refl _
  | cons command commands ih =>
      cases command with
      | join j => exact ih.cons_cons j.joinedTx
      | leave l => exact ih.cons l.leftTx

theorem CommandsSent.joins (h : CommandsSent s) : JoinsSent s := by
  constructor
  · rw [joins_eq]
    exact h.distinct.sublist (joinTxs_sublist _)
  · intro j hj
    rw [joins_eq] at hj
    obtain ⟨command, hmem, hcommand⟩ := List.mem_filterMap.mp hj
    cases command <;> cases hcommand
    exact h.old _ hmem
  · intro c w tx hw hawaits
    obtain ⟨j, hlast, htx, _⟩ := h.last hw (Channel.joiningRx_of_awaitedJoin hawaits)
    obtain ⟨before, hcommands⟩ := List.getLast?_eq_some_iff.mp hlast
    have hjoins : s.joins.filter (fun j => j.joinReference = c) =
        (s.commandsOf c).filterMap ChannelStateCommand.join? := by
      rw [joins_eq, commandsOf, List.filter_filterMap, List.filterMap_filter]
      refine List.filterMap_congr fun command _ => ?_
      cases command with
      | join j =>
          by_cases hc : j.joinReference = c <;>
            simp [ChannelStateCommand.join?, ChannelStateCommand.joinReference, Option.filter, hc]
      | leave l => simp [ChannelStateCommand.join?]
    rw [hjoins, hcommands, List.filterMap_append]
    simp [ChannelStateCommand.join?, htx]

theorem joinsSent_of_run (h : Run (machine strategy) ok init ls s)
    (hrunning : s.socket.task.isRunning = true) : JoinsSent s :=
  (commandsSent_of_run h hrunning).joins

/-- No channel waits for a join that was not written. -/
theorem unwritten_not_awaited
    (h : Run (machine strategy) (fun s label => joinsWritten s label = true) init ls s)
    (hrunning : s.socket.task.isRunning = true) {j : Join} (hw : s.channels.lookup c = some w)
    (hj : (j, false) ∈ Socket.joinsTaken s.socket.trace) : w.task.awaitedJoin ≠ some j.joinedTx := by
  refine h.invariant_of_run (I := fun s => s.socket.task.isRunning = true → ∀ c w j,
    s.channels.lookup c = some w → (j, false) ∈ Socket.joinsTaken s.socket.trace →
      w.task.awaitedJoin ≠ some j.joinedTx) ?_ ?_ hrunning c w j hw hj
  · intro _ c w j hw
    rw [lookup_init] at hw
    cases hw
  intro ls s label s' hrun ih hok hs hrunning' c w' j hw' hj hawaits
  have hstep := step_cases hs
  have hrunning := hstep.running hrunning'
  have hawait := hstep.await_cases hrun hrunning' hw' hawaits
  rcases joinsTaken_step hstep hj with hj | ⟨event, input, taken, rfl, hreceive, hj⟩
  · cases hawait with
    | waits hw hawaits => exact ih hrunning c _ j hw hj hawaits
    | sent hlabel hw htask hsent htx =>
        have hmem : j ∈ s.joins := List.mem_append_left _ (List.mem_map.mpr ⟨_, hj, rfl⟩)
        exact absurd htx (Nat.ne_of_lt ((joinsSent_of_run hrun hrunning).old j hmem))
  · cases hawait with
    | waits hw hawaits => exact not_awaited_of_unwritten hok hreceive hj hw hawaits
    | sent hlabel => cases hlabel

/-! ## The property -/

theorem joins_txs (s : System) : s.joins.map Join.joinedTx =
    Socket.joinTxs s.socket.trace ++ s.queuedJoins.map Join.joinedTx := by
  simp [joins, Socket.joinTxs, Function.comp_def]

theorem joinsDistinct_of_receive {event : SocketEvent} {input : Socket.Input} {taken : System}
    (h : JoinsSent s) (hreceive : Receive s event input taken) :
    Socket.joinsDistinct s.socket (.select input) = true := by
  simp only [Socket.joinsDistinct, Option.all_eq_true, decide_eq_true_eq]
  intro x hx htaken
  have hqueued : x.1 ∈ s.queuedJoins := by
    rw [← hreceive.joins, hx]
    simp
  have hdistinct := h.distinct
  rw [joins_txs] at hdistinct
  exact (List.nodup_append.mp hdistinct).2.2 _ htaken _ (List.mem_map_of_mem hqueued) rfl

theorem joinsTracked_of_run (h : Run (machine strategy) ok init ls s) :
    Socket.JoinsTracked s.socket := by
  have hstrong := h.strengthen (I := fun s => s.socket.task.isRunning = true → JoinsSent s)
    fun _ _ hrun => joinsSent_of_run hrun
  obtain ⟨ks, hks⟩ := socket_run_of (fun w l => Socket.joinsDistinct w l = true) (by
    intro w l hl
    cases l with
    | select input => exact absurd rfl (hl input)
    | _ => rfl) (fun s event input taken hok hreceive hrunning =>
      joinsDistinct_of_receive (hok.1 hrunning) hreceive) hstrong
  exact Socket.joinsTracked_of_run hks

/-- A join that a channel waits for and that was taken is the last one of the channel, and was
written. -/
theorem JoinsSent.lastJoin {join : Join} {sent : Bool} (h : JoinsSent s)
    (hwritten : ∀ j, (j, false) ∈ Socket.joinsTaken s.socket.trace →
      w.task.awaitedJoin ≠ some j.joinedTx)
    (hw : s.channels.lookup c = some w) (hawaits : w.task.awaitedJoin = some join.joinedTx)
    (hjoin : (join, sent) ∈ Socket.joinsTaken s.socket.trace) :
    Socket.lastJoin c s.socket.trace = some (join, true) := by
  have hmem : join ∈ (Socket.joinsTaken s.socket.trace).map Prod.fst :=
    List.mem_map.mpr ⟨_, hjoin, rfl⟩
  obtain ⟨j, hj, htx⟩ := Option.map_eq_some_iff.mp (h.last hw hawaits)
  obtain rfl : j = join := by
    have hjs : j ∈ s.joins := (List.mem_filter.mp (List.mem_of_getLast? hj)).1
    exact List.inj_on_of_nodup_map h.distinct hjs (List.mem_append_left _ hmem) htx
  have hqueued : s.queuedJoins.filter (fun j => j.joinReference = c) = [] := by
    by_contra hne
    simp only [joins, List.filter_append] at hj
    rw [List.getLast?_append_of_ne_nil _ hne] at hj
    have hmem' := (List.mem_filter.mp (List.mem_of_getLast? hj)).1
    have hdistinct := h.distinct
    rw [joins, List.map_append] at hdistinct
    exact (List.nodup_append.mp hdistinct).2.2 _ (List.mem_map_of_mem hmem) _
      (List.mem_map_of_mem hmem') rfl
  simp only [joins, List.filter_append, hqueued, List.append_nil, List.filter_map,
    List.getLast?_map] at hj
  obtain ⟨⟨j', sent'⟩, hlast, rfl⟩ := Option.map_eq_some_iff.mp hj
  have hlast : Socket.lastJoin c s.socket.trace = some (j', sent') := hlast
  cases sent' with
  | true => exact hlast
  | false => exact absurd hawaits (hwritten _ (Socket.lastJoin_mem hlast).1)

/-- Who waits for a join that was taken has its answer, or is answered by the timer at the latest. -/
theorem answered_or_pending {join : Join} {sent : Bool}
    (h : Run (machine strategy) (fun s label => joinsWritten s label = true) init ls s)
    (hrunning : s.socket.task.isRunning = true) (hw : s.channels.lookup c = some w)
    (hawaits : w.task.awaitedJoin = some join.joinedTx)
    (hjoin : (join, sent) ∈ Socket.joinsTaken s.socket.trace) :
    join.joinedTx ∈ Socket.answered s.socket.effects ∨
      ∃ connected, s.socket.task.connection = some connected ∧
        connected.pendingJoin join.key = some join ∧
        ⟨join.deadline, join.key, join.joinedTx⟩ ∈ connected.joinTimeouts := by
  have htracked := joinsTracked_of_run h
  have hlast := (joinsSent_of_run h hrunning).lastJoin
    (fun _ => unwritten_not_awaited h hrunning hw) hw hawaits hjoin
  refine (htracked.covered hrunning hlast).imp_right ?_
  rintro ⟨connected, hc, hpending⟩
  exact ⟨connected, hc, hpending, (htracked.pending hc hpending).timer⟩

/-- An answer that was given reached the receiver, or its sender is still in the handler. -/
theorem joined_of_answered (h : tx ∈ Socket.answered s.socket.effects) :
    s.joined tx ≠ .closed := by
  obtain ⟨effect, heffect, htx⟩ := List.mem_filterMap.mp h
  obtain ⟨result, rfl⟩ : ∃ result, effect = .joinedTx tx result := by
    cases effect <;> cases htx
    exact ⟨_, rfl⟩
  rw [← List.take_append_drop s.delivered s.socket.effects, List.mem_append] at heffect
  simp only [joined, oneshot]
  split
  · simp
  · rename_i hnone
    rcases heffect with hvisible | hundelivered
    · have hfound := List.findSome?_eq_none_iff.mp hnone _ hvisible
      simp at hfound
    · rw [if_pos]
      · simp
      · simp only [heldTxs, List.mem_append]
        exact .inl (.inr (List.mem_filterMap.mpr ⟨_, hundelivered, rfl⟩))

theorem joined_of_held (h : tx ∈ s.heldTxs) : s.joined tx ≠ .closed := by
  simp only [joined, oneshot]
  split
  · simp
  · rw [if_pos h]
    simp

theorem mem_heldTxs_of_queued {join : Join} (h : join ∈ s.queuedJoins) :
    join.joinedTx ∈ s.heldTxs := by
  obtain ⟨command, hcommand, hjoin⟩ := List.mem_filterMap.mp h
  have htx : command.tx = join.joinedTx := by
    cases command <;> cases hjoin
    rfl
  have hmem : join.joinedTx ∈ s.channelStateCommandRx.map ChannelStateCommand.tx :=
    htx ▸ List.mem_map_of_mem hcommand
  simp [heldTxs, hmem]

theorem mem_heldTxs_of_pending {connected : Socket.Connected} {key : Socket.JoinKey} {join : Join}
    (hc : s.socket.task.connection = some connected)
    (h : connected.pendingJoin key = some join) : join.joinedTx ∈ s.heldTxs := by
  have hmem : join.joinedTx ∈ connected.joinByReferenceByTopic.values.map Join.joinedTx :=
    Socket.mem_pendingTxs.mpr ⟨key, join, h, rfl⟩
  have hheld : join.joinedTx ∈ connected.heldTxs := List.mem_append_left _ hmem
  simp [heldTxs, hc, hheld]

/-- The sender of a join that a channel waits for is not dropped while the socket listener runs. -/
theorem joined_ne_closed
    (h : Run (machine strategy) (fun s label => joinsWritten s label = true) init ls s)
    (hrunning : s.socket.task.isRunning = true) (hw : s.channels.lookup c = some w)
    (hawaits : w.task.awaitedJoin = some tx) : s.joined tx ≠ .closed := by
  obtain ⟨join, hjoin, rfl⟩ := Option.map_eq_some_iff.mp ((joinsSent_of_run h hrunning).last hw hawaits)
  have hmem := (List.mem_filter.mp (List.mem_of_getLast? hjoin)).1
  rcases List.mem_append.mp hmem with hmem | hqueued
  · obtain ⟨⟨join', sent⟩, htaken, rfl⟩ := List.mem_map.mp hmem
    rcases answered_or_pending h hrunning hw hawaits htaken with hdone | ⟨connected, hc, hpending, _⟩
    · exact joined_of_answered hdone
    · exact joined_of_held (mem_heldTxs_of_pending hc hpending)
  · exact joined_of_held (mem_heldTxs_of_queued hqueued)

/-- A channel listener ends with an error only when the sender of its join was dropped, or when the
socket listener is gone. -/
theorem ChannelStep.error? {error : Channel.ShutdownError} (h : ChannelStep s s' c w label w')
    (hw' : w'.task.error? = some error) :
    w.task.error? = some error ∨ s.socket.task.isRunning = false ∨
      ∃ tx, w.task.awaitedJoin = some tx ∧ s.joined tx = .closed := by
  cases h with
  | user | stateCommand | sendCommand => exact .inl hw'
  | forward | publish => cases hw'
  | fail htask hdead => exact .inr (.inl hdead)
  | poll hpoll =>
      cases hpoll with
      | breakOk | round | pending | mismatch => cases hw'
      | ready htask hready =>
          obtain ⟨joining, hstate, _, hclosed⟩ := hready.exited (Channel.proceed_error? hw')
          refine .inr (.inr ⟨joining.socketJoinedRx, ?_, hclosed⟩)
          rw [htask, hstate]
          rfl

theorem not_ended_of_run
    (h : Run (machine strategy) (fun s label => joinsWritten s label = true) init ls s)
    (hrunning : s.socket.task.isRunning = true) (hw : s.channels.lookup c = some w) :
    w.task.error? = none := by
  refine h.invariant_of_run (I := fun s => s.socket.task.isRunning = true → ∀ c w,
    s.channels.lookup c = some w → w.task.error? = none) ?_ ?_ hrunning c w hw
  · intro _ c w hw
    rw [lookup_init] at hw
    cases hw
  intro ls s label s' hrun ih hok hs hrunning' c w' hw'
  have hstep := step_cases hs
  have hrunning := hstep.running hrunning'
  cases hstep.channel_cases hw' with
  | kept hw => exact ih hrunning c w' hw
  | @stepped w hw h =>
      cases herror : w'.task.error? with
      | none => rfl
      | some error =>
          rcases h.error? herror with hw₁ | hdead | ⟨tx, hawaits, hclosed⟩
          · rw [ih hrunning c w hw] at hw₁
            cases hw₁
          · rw [hrunning] at hdead
            cases hdead
          · exact absurd hclosed (joined_ne_closed hrun hrunning hw hawaits)
  | spawned _ h =>
      subst h
      rfl

end System

end PhoenixChannels
