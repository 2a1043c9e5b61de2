import PhoenixChannels.System.Lemmas.Runs

/-!
# The joins and leaves of channels

All commands that change the membership of a channel, in the order in which its listener sent them:
those that the socket listener took, and those that are still in its queue.
-/

namespace PhoenixChannels

def ChannelStateCommand.joinReference : ChannelStateCommand → JoinReference
  | join j => j.joinReference
  | leave l => l.joinReference

namespace Channel

/-- The `oneshot` channel from which the listener reads the answer to its join, also while it is
suspended. -/
def Task.joiningRx (task : Task) : Option TxId := task.joining?.map Joining.socketJoinedRx

def State.joining? : State → Option Joining
  | joining j => some j
  | _ => none

@[simp] theorem joiningRx_selecting {state : State} {rest disabled : List Branch} :
    (Task.selecting state rest disabled).joiningRx =
      state.joining?.map Joining.socketJoinedRx := by cases state <;> rfl

@[simp] theorem joiningRx_publishing {state : State} :
    (Task.publishing state).joiningRx = state.joining?.map Joining.socketJoinedRx := by
  cases state <;> rfl

variable {env : Surroundings} {w w' : World} {state : State} {branch : Branch} {flow : Flow}
variable {read : Option TxId} {now : Instant} {tx : TxId}

/-- The join that a handler goes on with. -/
def Flow.joining? : Flow → Option Joining
  | next (.joining joining) _ | call (.leaveJoining joining _) => some joining
  | _ => none

theorem proceed_joiningRx :
    (w.proceed flow).task.joiningRx = flow.joining?.map Joining.socketJoinedRx := by
  cases flow with
  | next state => cases state <;> rfl
  | call c => cases c <;> rfl
  | exit | panic => rfl

theorem connectivityChanged_joining? {connectivity : Connectivity} {effects : List Effect} :
    (Flow.next (connectivityChanged now state connectivity).1 effects).joining? = none := by
  cases state with
  | waitingForSocketToConnect rejoin =>
      rcases connectivity with _ | d
      · cases rejoin <;> rfl
      · cases d <;> rfl
  | _ =>
      rcases connectivity with _ | d
      · rfl
      · cases d <;> rfl

theorem joinedResultReceived_joining? {joining : Joining} {effects : List Effect}
    {result : Except Socket.JoinError JoinedChannelReceivers} :
    (Flow.next (joinedResultReceived now joining result).1 effects).joining? = none := by
  rcases result with error | receivers
  · cases error <;> rfl
  · rfl

theorem pushReceived_joining? {joined : Joined} {push : Push} {effects : List Effect} :
    (Flow.next (pushReceived now joined push).1 effects).joining? = none := by
  simp only [pushReceived]
  split <;> rfl

theorem updateState_joining? {command : StateCommand} {joining : Joining}
    (h : (updateState now state command).joining? = some joining) :
    ∃ before, state = .joining before ∧ before.socketJoinedRx = joining.socketJoinedRx := by
  cases command with
  | join createdAt timeout joinedTx =>
      cases state with
      | joining j =>
          cases h
          exact ⟨j, rfl, rfl⟩
      | waitingToJoin | leaving | left =>
          simp only [updateState, join, socketJoinIfNotTimedOut, socketJoin] at h
          split at h <;> cases h
      | _ => cases h
  | leave tx =>
      cases state <;> cases h
      exact ⟨_, rfl, rfl⟩

theorem socketShutdown_joining? {error : Socket.ShutdownError} :
    (socketShutdown state error).joining? = none := by
  cases state <;> rfl

theorem BranchReady.joiningRx {rest disabled : List Branch}
    (htask : w.task = .selecting state (branch :: rest) disabled)
    (h : BranchReady env w state branch w' flow)
    (hw : (w'.proceed flow).task.joiningRx = some tx) : w.task.joiningRx = some tx := by
  rw [proceed_joiningRx] at hw
  obtain ⟨joining, hjoining, rfl⟩ := Option.map_eq_some_iff.mp hw
  cases h with
  | shutdown => cases state <;> cases hjoining
  | connectivity =>
      rw [connectivityChanged_joining?] at hjoining
      cases hjoining
  | socketJoined =>
      rw [joinedResultReceived_joining?] at hjoining
      cases hjoining
  | stateCommand =>
      obtain ⟨before, rfl, hrx⟩ := updateState_joining? hjoining
      simp [htask, State.joining?, hrx]
  | @sendCommand joined command => cases command <;> cases hjoining
  | push =>
      rw [pushReceived_joining?] at hjoining
      cases hjoining
  | socketJoinedClosed | left | socketLeft | sleep | broadcast => cases hjoining

theorem PollStep.joiningRx (h : PollStep env w w' read) (hw : w'.task.joiningRx = some tx) :
    w.task.joiningRx = some tx := by
  cases h with
  | breakOk => cases hw
  | round htask | pending htask => simpa [htask] using hw
  | mismatch htask hmismatch =>
      cases hmismatch with
      | broadcastLagged => cases hw
      | lagged | closed => simpa [htask] using hw
  | ready htask hready => exact hready.joiningRx htask hw

theorem sent_joiningRx {call : SocketCall} {fresh : TxId}
    (h : (Task.publishing (call.sent fresh).1).joiningRx = some tx) :
    tx = fresh ∧ ∃ state deadline rejoin txs, call = .join state deadline rejoin txs := by
  cases call with
  | join state deadline rejoin txs => exact ⟨(Option.some.inj h).symm, _, _, _, _, rfl⟩
  | _ => cases h

theorem failed_joining? {call : SocketCall} {error : Socket.ShutdownError} {joining : Joining}
    (h : (call.failed error).joining? = some joining) :
    (Task.calling call).joining? = some joining := by
  cases call with
  | join =>
      rw [SocketCall.failed, socketShutdown_joining?] at h
      cases h
  | leaveJoining => exact h
  | leaveJoined | cast | call => cases h

end Channel

/-! ## All commands -/

namespace Socket

def Input.stateCommand? : Input → Option ChannelStateCommand
  | channelStateCommand command _ _ => some command
  | _ => none

/-- The joins and leaves that the listener took. -/
def commandsTaken (trace : List Entry) : List ChannelStateCommand :=
  trace.filterMap fun e => e.input.stateCommand?

theorem commandsTaken_append {trace : List Entry} {e : Entry} :
    commandsTaken (trace ++ [e]) = commandsTaken trace ++ e.input.stateCommand?.toList := by
  simp only [commandsTaken, List.filterMap_append]
  cases h : e.input.stateCommand? <;> simp [h]

end Socket

namespace System

open Machine

variable {strategy : Option (Nat → Duration)} {ok : System → Label → Prop} {ls : List Label}
variable {s s' taken : System} {label : Label} {c : JoinReference} {w w' : Channel.World} {tx : TxId}
variable {event : SocketEvent} {input : Socket.Input}

/-- All joins and leaves that were sent to the socket listener, in order. -/
def commands (s : System) : List ChannelStateCommand :=
  Socket.commandsTaken s.socket.trace ++ s.channelStateCommandRx

def commandsOf (s : System) (c : JoinReference) : List ChannelStateCommand :=
  s.commands.filter fun command => command.joinReference = c

theorem Receive.commands (h : Receive s event input taken) :
    input.stateCommand?.toList ++ taken.channelStateCommandRx = s.channelStateCommandRx := by
  cases h with
  | channelStateCommand hrx => rw [hrx]; rfl
  | _ => rfl

/-- What a step does to the list of all commands: only a handler that goes on adds one. -/
inductive CommandsChange (s : System) (label : Label) (s' : System) : Prop
  | kept : s'.commands = s.commands → s.fresh ≤ s'.fresh →
      (∀ c w call command, label = .forward c → s.channels.lookup c = some w →
        w.task = .calling call → call.command w.listener s.fresh ≠ .inl command) →
      CommandsChange s label s'
  | sent {c : JoinReference} {w : Channel.World} {call : Channel.SocketCall}
      {command : ChannelStateCommand} :
      label = .forward c → s.channels.lookup c = some w → w.task = .calling call →
      call.command w.listener s.fresh = .inl command → s'.commands = s.commands ++ [command] →
      s'.fresh = s.fresh + 1 →
      (∀ w', s'.channels.lookup c = some w' → w'.listener = w.listener ∧
        w'.task = .publishing (call.sent s.fresh).1) → CommandsChange s label s'

theorem SystemStep.commandsChange (h : SystemStep strategy s label s')
    (hrunning : s'.socket.task.isRunning = true) : CommandsChange s label s' := by
  cases h with
  | user hlabel h =>
      have hcall : ∀ c w call command, label = .forward c → s.channels.lookup c = some w →
          w.task = .calling call → call.command w.listener s.fresh ≠ .inl command := by
        rintro c w call command rfl
        cases hlabel
      cases h with
      | caller | channel => exact .kept rfl (Nat.le_refl _) hcall
      | socketCommand | channelSpawn | stateCommand | sendCommand =>
          exact .kept rfl (Nat.le_succ _) hcall
  | select hreceive hstep =>
      rw [setSocket_socket] at hrunning
      rw [setSocket_of_running hrunning]
      obtain ⟨e, htrace, hinput⟩ := select_trace hstep
      refine .kept ?_ ?_ (by simp)
      · simp only [commands, htrace, Socket.commandsTaken_append, hinput, List.append_assoc,
          hreceive.commands]
      · cases hreceive <;> exact Nat.le_refl _
  | forwardState hw htask _ hcommand =>
      refine .sent rfl hw htask hcommand ?_ rfl ?_
      · simp [commands, resumed, setChannel]
      · intro w' hw'
        obtain rfl : _ = w' := by simpa [resumed, setChannel] using hw'
        exact ⟨rfl, rfl⟩
  | @forwardSend c w call command hw htask _ hcommand =>
      refine .kept rfl (Nat.le_succ _) ?_
      intro c' w' call' command' hc hw' htask' hcommand'
      cases hc
      cases Option.some.inj (hw.symm.trans hw')
      cases htask.symm.trans htask'
      rw [hcommand] at hcommand'
      cases hcommand'
  | @poll c w w' read => cases read <;> exact .kept rfl (Nat.le_refl _) (by simp)
  | _ => exact .kept rfl (Nat.le_refl _) (by simp)

theorem command_inl {call : Channel.SocketCall} {listener : Channel.Listener} {fresh : TxId}
    {command : ChannelStateCommand} (h : call.command listener fresh = .inl command) :
    command.joinReference = listener.joinReference ∧ command.tx = fresh := by
  cases call <;> cases h <;> exact ⟨rfl, rfl⟩

/-! ## Who waits for which join -/

/-- How a listener comes to wait for a join. -/
inductive JoiningCase (s : System) (c : JoinReference) (label : Label) (w' : Channel.World)
    (tx : TxId) : Prop
  | waits {w : Channel.World} : s.channels.lookup c = some w → w.task.joiningRx = some tx →
      w'.listener = w.listener → JoiningCase s c label w' tx
  | sent {w : Channel.World} {state : Channel.State} {deadline : Instant}
      {rejoin : Channel.Rejoin} {txs : List TxId} :
      label = .forward c → s.channels.lookup c = some w →
      w.task = .calling (.join state deadline rejoin txs) → w'.listener = w.listener →
      tx = s.fresh → JoiningCase s c label w' tx

theorem SystemStep.joining_cases (h : SystemStep strategy s label s')
    (hrun : Run (machine strategy) ok init ls s) (hw' : s'.channels.lookup c = some w')
    (hrx : w'.task.joiningRx = some tx) : JoiningCase s c label w' tx := by
  cases h.channel_cases hw' with
  | kept hw => exact .waits hw hrx rfl
  | stepped hw hstep =>
      have hlistener := hstep.listener
      cases hstep with
      | user | stateCommand | sendCommand => exact .waits hw hrx rfl
      | poll hpoll => exact .waits hw (hpoll.joiningRx hrx) hlistener
      | forward htask =>
          obtain ⟨htx, state, deadline, rejoin, txs, rfl⟩ := Channel.sent_joiningRx hrx
          exact .sent rfl hw htask rfl htx
      | fail htask _ hflow =>
          refine .waits hw ?_ hlistener
          rw [Channel.proceed_joiningRx] at hrx
          obtain ⟨joining, hjoining, rfl⟩ := Option.map_eq_some_iff.mp hrx
          rw [Channel.Task.joiningRx, htask]
          rcases hflow with ⟨error, _, rfl⟩ | ⟨reason, _, rfl⟩
          · rw [Channel.failed_joining? hjoining]
            rfl
          · cases hjoining
      | publish htask =>
          refine .waits hw ?_ rfl
          simpa [htask, Channel.Task.select] using hrx
  | spawned heffect hspawn =>
      subst hspawn
      obtain ⟨before, rfl⟩ := spawned_state hrun heffect
      cases before <;> cases hrx

/-- The commands that were sent, and the joins among them that listeners wait for. -/
structure CommandsSent (s : System) : Prop where
  distinct : (s.commands.map ChannelStateCommand.tx).Nodup
  old : ∀ command ∈ s.commands, command.tx < s.fresh
  /-- A listener waits for the last command that it sent. -/
  last {c : JoinReference} {w : Channel.World} {tx : TxId} : s.channels.lookup c = some w →
    w.task.joiningRx = some tx → ∃ join : Join, (s.commandsOf c).getLast? = some (.join join) ∧
      join.joinedTx = tx ∧ join.topic = w.listener.topic

theorem CommandsSent.step (h : CommandsSent s) (hrun : Run (machine strategy) ok init ls s)
    (hstep : SystemStep strategy s label s') (hrunning : s'.socket.task.isRunning = true) :
    CommandsSent s' := by
  cases hstep.commandsChange hrunning with
  | kept hcommands hfresh hcall =>
      refine ⟨hcommands ▸ h.distinct, ?_, ?_⟩
      · intro command hmem
        exact lt_of_lt_of_le (h.old command (hcommands ▸ hmem)) hfresh
      · intro c w' tx hw' hrx
        rw [commandsOf, hcommands]
        cases hstep.joining_cases hrun hw' hrx with
        | waits hw hrx hlistener =>
            rw [hlistener]
            exact h.last hw hrx
        | sent hlabel hw htask => exact absurd rfl (hcall _ _ _ _ hlabel hw htask)
  | @sent c w call command hlabel hw htask hcommand hcommands hfresh hnext =>
      obtain ⟨href, htx⟩ := command_inl hcommand
      rw [joinReference_of_run hrun hw] at href
      refine ⟨?_, ?_, ?_⟩
      · rw [hcommands, List.map_append]
        refine List.nodup_append.mpr ⟨h.distinct, List.nodup_singleton _, ?_⟩
        intro tx hmem tx' hmem' heq
        obtain ⟨command', hcommand', rfl⟩ := List.mem_map.mp hmem
        obtain rfl := List.mem_singleton.mp hmem'
        exact absurd (heq.trans htx) (Nat.ne_of_lt (h.old command' hcommand'))
      · intro command' hmem
        rw [hcommands] at hmem
        rw [hfresh]
        rcases List.mem_append.mp hmem with hmem | hmem
        · exact Nat.lt_succ_of_lt (h.old command' hmem)
        · obtain rfl := List.mem_singleton.mp hmem
          exact Nat.lt_succ_of_le (Nat.le_of_eq htx)
      · intro c' w' tx hw' hrx
        rw [commandsOf, hcommands, List.filter_append]
        by_cases hc : c' = c
        · -- the listener waits for the command that it sends in this step
          subst hc
          obtain ⟨hlistener, htask'⟩ := hnext w' hw'
          rw [htask'] at hrx
          obtain ⟨rfl, state, deadline, rejoin, txs, rfl⟩ := Channel.sent_joiningRx hrx
          cases hcommand
          rw [hlistener, List.filter_cons_of_pos (by simpa using href)]
          exact ⟨_, List.getLast?_concat, rfl, rfl⟩
        · have hne : ¬ command.joinReference = c' := href ▸ Ne.symm hc
          rw [List.filter_cons_of_neg (by simpa using hne), List.filter_nil, List.append_nil]
          cases hstep.joining_cases hrun hw' hrx with
          | waits hw₁ hrx hlistener =>
              rw [hlistener]
              exact h.last hw₁ hrx
          | sent hlabel' => exact absurd (Label.forward.inj (hlabel.symm.trans hlabel')).symm hc

theorem commandsSent_of_run (h : Run (machine strategy) ok init ls s)
    (hrunning : s.socket.task.isRunning = true) : CommandsSent s := by
  refine h.invariant_of_run (I := fun s => s.socket.task.isRunning = true → CommandsSent s) ?_ ?_
    hrunning
  · intro _
    refine ⟨List.nodup_nil, ?_, ?_⟩
    · intro command hmem
      cases hmem
    · intro c w tx hw
      rw [lookup_init] at hw
      cases hw
  intro ls s label s' hrun ih _ hs hrunning'
  have hstep := step_cases hs
  exact (ih (hstep.running hrunning')).step hrun hstep hrunning'

end System

end PhoenixChannels
