import PhoenixChannels.Socket.Lemmas.Replies
import PhoenixChannels.System.Lemmas.Connectivity

/-!
# Casts before leaves

A cast and a later leave of one channel go through two queues of its listener and two queues of the
socket listener. The cast stays ahead where each listener takes the leave after the cast.
-/

namespace PhoenixChannels

/-! ## A channel listener that casts and leaves -/

namespace Channel

/-- The leaves that a state is to answer. -/
def State.leftTxs : State → List TxId
  | leaving l => l.channelLeftTxs
  | _ => []

def SocketCall.leftTxs : SocketCall → List TxId
  | join state _ _ _ => state.leftTxs
  | leaveJoining _ leftTx | leaveJoined _ leftTx => [leftTx]
  | cast _ _ _ | call _ _ _ => []

def Task.leftTxs : Task → List TxId
  | selecting state _ _ | publishing state => state.leftTxs
  | calling c => c.leftTxs
  | exited _ | panicked _ => []

def Effect.left? : Effect → Option TxId
  | leftTx tx _ => some tx
  | _ => none

/-- The leaves that an outcome still has to answer, or answers. -/
def Flow.leftTxs : Flow → List TxId
  | next state effects => state.leftTxs ++ effects.filterMap Effect.left?
  | call c => c.leftTxs
  | exit _ effects => effects.filterMap Effect.left?
  | panic _ => []

/-- The leaves that the listener has taken from its queue. -/
def World.leavesTaken (w : World) : List TxId := w.task.leftTxs ++ w.effects.filterMap Effect.left?

/-- A cast that has not left the channel. -/
inductive CastHeld (w : World) (ticket : TxId) : Prop
  | queued {payload : EventPayload} : .cast payload ticket ∈ w.sendCommandRx → CastHeld w ticket
  | calling {joined : Joined} {payload : EventPayload} :
      w.task = .calling (.cast joined payload ticket) → CastHeld w ticket

variable {env : Surroundings} {w w' : World} {state : State} {branch : Branch} {flow : Flow}
variable {read : Option TxId} {now : Instant} {tx ticket : TxId}

theorem mem_proceed_leavesTaken : tx ∈ (w.proceed flow).leavesTaken ↔
    tx ∈ flow.leftTxs ∨ tx ∈ w.effects.filterMap Effect.left? := by
  cases flow <;>
    simp only [World.leavesTaken, World.proceed, World.finish, Task.leftTxs, Flow.leftTxs,
      List.filterMap_append, List.mem_append, List.filterMap_nil, List.not_mem_nil, or_false,
      false_or]
  all_goals tauto

@[simp] theorem left?_sendJoinPayloadToChannelTxs {txs : List TxId}
    {result : Except JoinError Payload} :
    (sendJoinPayloadToChannelTxs txs result).filterMap Effect.left? = [] := by
  simp [sendJoinPayloadToChannelTxs, List.filterMap_map, Effect.left?]

@[simp] theorem left?_sendToChannelTxs {txs : List TxId} {result : Except LeaveError Unit} :
    (sendToChannelTxs txs result).filterMap Effect.left? = txs := by
  simp [sendToChannelTxs, List.filterMap_map, Effect.left?, Function.comp_def]

/-! ### Leaves -/

theorem leftTxs_connectivityChanged {connectivity : Connectivity} :
    (connectivityChanged now state connectivity).1.leftTxs
      ++ (connectivityChanged now state connectivity).2.filterMap Effect.left? = state.leftTxs := by
  cases state with
  | waitingForSocketToConnect rejoin =>
      rcases connectivity with _ | d
      · cases rejoin <;> rfl
      · cases d <;> rfl
  | shuttingDown | shutDown => rfl
  | _ =>
      rcases connectivity with _ | d
      · simp [connectivityChanged, State.leftTxs]
      · cases d <;> simp [connectivityChanged, State.leftTxs]

theorem leftTxs_shutdown :
    (shutdown state).1.leftTxs ++ (shutdown state).2.filterMap Effect.left? = state.leftTxs := by
  cases state <;> simp [shutdown, State.leftTxs]

theorem leftTxs_joinedResultReceived {joining : Joining}
    {result : Except Socket.JoinError JoinedChannelReceivers} :
    (joinedResultReceived now joining result).1.leftTxs
      ++ (joinedResultReceived now joining result).2.filterMap Effect.left? = [] := by
  rcases result with error | receivers
  · cases error <;> exact left?_sendJoinPayloadToChannelTxs
  · exact left?_sendJoinPayloadToChannelTxs

theorem leftTxs_pushReceived {joined : Joined} {push : Push} :
    (pushReceived now joined push).1.leftTxs
      ++ (pushReceived now joined push).2.filterMap Effect.left? = [] := by
  simp only [pushReceived]
  split <;> rfl

theorem leftTxs_socketShutdown {error : Socket.ShutdownError} :
    (socketShutdown state error).leftTxs = state.leftTxs := by
  cases state <;> simp [socketShutdown, Flow.leftTxs, State.leftTxs]

theorem leftTxs_join {createdAt : Instant} {timeout : Duration} :
    (join now state createdAt timeout tx).leftTxs ⊆ state.leftTxs := by
  cases state <;>
    simp only [join, socketJoinIfNotTimedOut, socketJoin] <;>
    first
      | (split <;> simp [Flow.leftTxs, SocketCall.leftTxs, State.leftTxs, Rejoin.wait])
      | simp [Flow.leftTxs, State.leftTxs, Effect.left?]

theorem leftTxs_leave : (leave state tx).leftTxs ⊆ tx :: state.leftTxs := by
  cases state <;> simp [leave, Flow.leftTxs, SocketCall.leftTxs, State.leftTxs, Effect.left?]

theorem BranchReady.leftTxs (h : BranchReady env w state branch w' flow) (htx : tx ∈ flow.leftTxs) :
    tx ∈ state.leftTxs ∨ branch = .stateCommand ∧ ∃ rest, w.stateCommandRx = .leave tx :: rest := by
  cases h with
  | shutdown => exact .inl (leftTxs_shutdown ▸ htx)
  | connectivity => exact .inl (leftTxs_connectivityChanged ▸ htx)
  | socketJoined =>
      rw [Flow.leftTxs, leftTxs_joinedResultReceived] at htx
      cases htx
  | socketJoinedClosed => exact .inl (leftTxs_socketShutdown ▸ htx)
  | left => cases htx
  | socketLeft =>
      left
      simpa [Flow.leftTxs, Leaving.left, State.leftTxs] using htx
  | sleep => cases htx
  | @stateCommand state command rest hrx =>
      cases command with
      | join createdAt timeout joinedTx => exact .inl (leftTxs_join htx)
      | leave leftTx =>
          rcases List.mem_cons.mp (leftTxs_leave htx) with rfl | hmem
          · exact .inr ⟨rfl, rest, hrx⟩
          · exact .inl hmem
  | sendCommand hrx =>
      rename_i joined command rest
      cases command <;> cases htx
  | push =>
      rw [Flow.leftTxs, leftTxs_pushReceived] at htx
      cases htx
  | broadcast => cases htx

/-- The listener takes the leave `tx` from its queue. -/
def TakesLeave (w : World) (tx : TxId) : Prop :=
  (∃ state rest disabled, w.task = .selecting state (.stateCommand :: rest) disabled) ∧
    ∃ rest, w.stateCommandRx = .leave tx :: rest

theorem PollStep.leavesTaken (h : PollStep env w w' read) (htx : tx ∈ w'.leavesTaken) :
    tx ∈ w.leavesTaken ∨ TakesLeave w tx := by
  cases h with
  | breakOk =>
      left
      simp only [World.leavesTaken, World.breakOk, World.finish, Task.leftTxs, List.append_nil,
        List.nil_append] at htx
      exact List.mem_append_right _ htx
  | round htask | pending htask =>
      left
      simpa [World.leavesTaken, htask, Task.leftTxs] using htx
  | mismatch htask hmismatch =>
      left
      cases hmismatch <;> simpa [World.leavesTaken, htask, Task.leftTxs, State.leftTxs] using htx
  | ready htask hready =>
      rw [mem_proceed_leavesTaken, hready.effects] at htx
      rcases htx with htx | htx
      · rcases hready.leftTxs htx with hmem | ⟨rfl, hrx⟩
        · exact .inl (by simp [World.leavesTaken, htask, Task.leftTxs, hmem])
        · exact .inr ⟨⟨_, _, _, htask⟩, hrx⟩
      · exact .inl (List.mem_append_right _ htx)

/-! ### Casts -/

theorem BranchReady.sendCommandRx (h : BranchReady env w state branch w' flow) :
    w'.sendCommandRx = w.sendCommandRx ∨ ∃ joined command,
      w.sendCommandRx = command :: w'.sendCommandRx ∧ flow = send joined command := by
  cases h with
  | sendCommand hrx => exact .inr ⟨_, _, hrx, rfl⟩
  | _ => exact .inl rfl

theorem proceed_castHeld {payload : EventPayload} (h : .cast payload ticket ∈ w.sendCommandRx) :
    CastHeld (w.proceed flow) ticket ∨ (w.proceed flow).task.isRunning = false := by
  cases flow with
  | next | call => exact .inl (.queued h)
  | exit | panic => exact .inr rfl

theorem PollStep.castHeld (h : PollStep env w w' read) (ht : CastHeld w ticket) :
    CastHeld w' ticket ∨ w'.task.isRunning = false := by
  cases h with
  | breakOk => exact .inr rfl
  | round htask | pending htask =>
      cases ht with
      | queued hmem => exact .inl (.queued hmem)
      | calling hcalling => cases htask.symm.trans hcalling
  | mismatch htask hmismatch =>
      cases ht with
      | queued hmem => cases hmismatch <;> exact .inl (.queued hmem)
      | calling hcalling => cases htask.symm.trans hcalling
  | ready htask hready =>
      cases ht with
      | calling hcalling => cases htask.symm.trans hcalling
      | queued hmem =>
          rcases hready.sendCommandRx with heq | ⟨joined, command, heq, rfl⟩
          · exact proceed_castHeld (heq ▸ hmem)
          · rw [heq] at hmem
            rcases List.mem_cons.mp hmem with rfl | hmem
            · exact .inl (.calling rfl)
            · exact proceed_castHeld hmem

theorem PollStep.castHeld_before (h : PollStep env w w' read) (ht : CastHeld w' ticket) :
    CastHeld w ticket := by
  cases h with
  | breakOk => cases ht <;> rename_i h <;> cases h
  | round | pending =>
      cases ht with
      | queued hmem => exact .queued hmem
      | calling hcalling => cases hcalling
  | mismatch htask hmismatch =>
      cases ht with
      | queued hmem => cases hmismatch <;> exact .queued hmem
      | calling hcalling => cases hcalling
  | @ready state branch rest disabled w₁ flow htask hready =>
      have hqueue : w₁.sendCommandRx ⊆ w.sendCommandRx := by
        rcases hready.sendCommandRx with heq | ⟨joined, command, heq, _⟩
        · rw [heq]
          exact fun _ h => h
        · rw [heq]
          exact List.subset_cons_self _ _
      cases ht with
      | queued hmem =>
          cases flow with
          | next | call => exact .queued (hqueue hmem)
          | exit | panic => cases hmem
      | calling hcalling =>
          cases flow with
          | call call =>
              cases hcalling
              cases hready.call_cases rfl with
              | cast hrx => exact .queued (hrx ▸ List.mem_cons_self)
          | next | exit | panic => cases hcalling

/-- The ticket of a cast. -/
def SendCommand.cast? : SendCommand → Option TxId
  | cast _ ticket => some ticket
  | call _ _ => none

/-! ### Calls into the socket -/

theorem leftTxs_sent (call : SocketCall) (fresh : TxId) :
    (call.sent fresh).1.leftTxs ++ (call.sent fresh).2.filterMap Effect.left? = call.leftTxs := by
  cases call with
  | join state deadline rejoin txs =>
      cases state <;> simp [SocketCall.sent, SocketCall.leftTxs, State.leftTxs]
  | _ => simp [SocketCall.sent, SocketCall.leftTxs, State.leftTxs]

theorem leftTxs_failed {call : SocketCall} {error : Socket.ShutdownError} :
    (call.failed error).leftTxs = call.leftTxs := by
  cases call with
  | join state deadline rejoin txs => exact leftTxs_socketShutdown
  | _ => rfl

theorem leave_of_command {call : SocketCall} {listener : Listener} {fresh : TxId} {l : Leave}
    (h : call.command listener fresh = .inl (.leave l)) :
    l.joinReference = listener.joinReference ∧ l.ticket ∈ call.leftTxs := by
  cases call <;> cases h <;> exact ⟨rfl, List.mem_singleton.mpr rfl⟩

end Channel

/-! ## The socket listener -/

namespace Socket

/-- While the socket stays connected, a cast that is taken is written. -/
theorem cast_written {strategy : Option (Nat → Duration)} {w w' : World} {k : Cast} {uuid : Uuid}
    {sent : Except WebSocketError Unit}
    (h : (machine strategy).step w (.select (.channelSendCommand (.cast k) uuid sent)) = some w')
    (hw : w.task.isConnected = true) (hw' : w'.task.isConnected = true) :
    ∃ id, (id, .cast k.ticket) ∈ written w'.trace ∧ id.key = k.key := by
  cases step_cases h with
  | @connected c input iteration htask hfresh hiter =>
      cases hiter with
      | cast =>
          refine ⟨⟨k.key, Reference.new uuid⟩, ?_, rfl⟩
          rw [record_trace, written_append]
          exact List.mem_append_right _ List.mem_cons_self
      | quiet _ _ hr => cases hr
      | lost d hr hstate =>
          rw [hstate] at hw'
          cases d <;> cases hw'
      | panic => cases hw'
  | unconnected htask hs =>
      rw [htask] at hw
      simp only [Task.isConnected, Option.isSome_iff_exists, Task.connection_eq_some,
        Task.state_selecting, Option.some.injEq] at hw
      obtain ⟨c, hc⟩ := hw
      exact absurd hc (hs c)

theorem leave_of_push {input : Input} {id : PushId} {l : TxId}
    (h : input.push? = some (id, .leave l)) :
    ∃ leave uuid sent, input = .channelStateCommand (.leave leave) uuid sent ∧
      leave.ticket = l ∧ leave.key = id.key := by
  unfold Input.push? at h
  split at h <;> cases h
  exact ⟨_, _, _, rfl, rfl, rfl⟩

end Socket

/-- The ticket of a cast. -/
def ChannelSendCommand.cast? : ChannelSendCommand → Option TxId
  | cast c => some c.ticket
  | call _ => none

namespace System

open Machine History

/-! ## A cast and the leaves after it -/

/-- A cast on the channel `c` that has not sent its command. -/
def isCasting (op : Operation) (c : JoinReference) : Bool :=
  match op.request, op.phase with
  | .channelCast c' _, .sending => c' = c
  | _, _ => false

def hasReturnedOk (op : Operation) : Bool :=
  match op.phase with
  | .returned (.ok _) => true
  | _ => false

/-- The call number `i`, a cast on the channel `c`, returns `Ok` in a step. The ticket of the cast
is `s.fresh`. -/
structure CastReturns (strategy : Option (Nat → Duration)) (s : System) (i : Nat)
    (c : JoinReference) (s' : System) : Prop where
  sending : s.operations[i]?.any (fun op => isCasting op c) = true
  step : (machine strategy).step s (.advance i) = some s'
  returned : s'.operations[i]?.any hasReturnedOk = true

/-- The socket stays connected on the way from `s` to `s'`. -/
structure ConnectionKept (s s' : System) : Prop where
  connected : s'.socket.task.isConnected = true
  unchanged : Socket.connectivities s'.socket.effects = Socket.connectivities s.socket.effects

/-- The frame of a cast was written. -/
def CastWritten (trace : List Socket.Entry) (c : JoinReference) (ticket : TxId) : Prop :=
  ∃ id, (id, .cast ticket) ∈ Socket.written trace ∧ id.key.joinReference = c

/-- A leave was taken by the channel listener. -/
inductive LeaveTaken (s : System) (c : JoinReference) (l : TxId) : Prop
  | listener {w : Channel.World} : s.channels.lookup c = some w → l ∈ w.leavesTaken →
      LeaveTaken s c l
  | queued {leave : Leave} : .leave leave ∈ s.channelStateCommandRx → leave.joinReference = c →
      leave.ticket = l → LeaveTaken s c l
  | written {id : PushId} : (id, .leave l) ∈ Socket.written s.socket.trace →
      id.key.joinReference = c → LeaveTaken s c l

/-- A later leave is written after the cast. -/
def LeavesFollow (c : JoinReference) (ticket : TxId) : List Socket.Entry → Prop :=
  Always (fun before e => ∀ id l, (id, .leave l) ∈ e.written → id.key.joinReference = c →
    ticket < l → CastWritten before c ticket)

/-- What the channel `c` does with a cast and with the leaves that were sent after it. -/
structure CastBeforeLeaves (s : System) (c : JoinReference) (ticket : TxId) : Prop where
  ahead : LeavesFollow c ticket s.socket.trace
  /-- The cast is not left behind in the queue of the channel. -/
  notLeftBehind {l : TxId} {w : Channel.World} : ticket < l → LeaveTaken s c l →
    s.channels.lookup c = some w → ∀ command ∈ w.sendCommandRx, command.cast? ≠ some ticket

/-- Neither listener takes a leave that was sent after the cast while the cast is in its other
queue. -/
def leavesAfter (c : JoinReference) (ticket : TxId) (s : System) : Label → Bool
  | .poll c' =>
      match s.channels.lookup c' with
      | some w =>
          match w.task, w.stateCommandRx with
          | .selecting _ (.stateCommand :: _) _, .leave l :: _ =>
              !(c' = c && ticket < l
                && w.sendCommandRx.any (fun command => command.cast? = some ticket))
          | _, _ => true
      | none => true
  | .select (.channelStateCommand _ _) =>
      match s.channelStateCommandRx with
      | .leave l :: _ =>
          !(l.joinReference = c && ticket < l.ticket
            && s.channelSendCommandRx.any (fun command => command.cast? = some ticket))
      | _ => true
  | _ => true

/-! ## How a leave is taken -/

variable {strategy : Option (Nat → Duration)} {ok : System → Label → Prop} {ls : List Label}
variable {s s' : System} {label : Label} {c : JoinReference} {w w' : Channel.World}
variable {l ticket : TxId}

theorem mem_of_mem_setSocket {socket : Socket.World} {command : ChannelStateCommand}
    (h : command ∈ (s.setSocket socket).channelStateCommandRx) :
    command ∈ s.channelStateCommandRx := by
  unfold setSocket at h
  split at h
  · exact h
  · cases h

theorem SystemStep.stateQueue_cases (h : SystemStep strategy s label s')
    {command : ChannelStateCommand} (hmem : command ∈ s'.channelStateCommandRx) :
    command ∈ s.channelStateCommandRx ∨ ∃ c w call, label = .forward c ∧
      s.channels.lookup c = some w ∧ w.task = .calling call ∧
      call.command w.listener s.fresh = .inl command := by
  cases h with
  | user _ h => cases h <;> exact .inl hmem
  | select hreceive =>
      have hmem := mem_of_mem_setSocket hmem
      cases hreceive with
      | channelStateCommand hrx =>
          rw [hrx]
          exact .inl (List.mem_cons_of_mem _ hmem)
      | _ => exact .inl hmem
  | @poll c w w' read => cases read <;> exact .inl hmem
  | forwardState hw htask hrunning hcommand =>
      rcases List.mem_append.mp hmem with hmem | hmem
      · exact .inl hmem
      · obtain rfl := List.mem_singleton.mp hmem
        exact .inr ⟨_, _, _, rfl, hw, htask, hcommand⟩
  | _ => exact .inl hmem

/-- What is written for a leave comes from the queue of the socket listener. -/
theorem Receive.leave_of_written {event : SocketEvent} {input : Socket.Input} {taken : System}
    {e : Socket.Entry} {id : PushId} (h : Receive s event input taken) (hinput : e.input = input)
    (he : e.Possible) (hmem : (id, .leave l) ∈ e.written) :
    ∃ leave rest uuid sent, event = .channelStateCommand uuid sent ∧
      s.channelStateCommandRx = .leave leave :: rest ∧ leave.ticket = l ∧ leave.key = id.key := by
  rcases Socket.Entry.written_cases he with hnil | ⟨x, hpush, hx⟩
  · rw [hnil] at hmem
    cases hmem
  · rw [hx, List.mem_singleton] at hmem
    rw [← hmem, hinput] at hpush
    obtain ⟨leave, uuid, sent, rfl, hticket, hkey⟩ := Socket.leave_of_push hpush
    cases h with
    | channelStateCommand hrx => exact ⟨_, _, _, _, rfl, hrx, hticket, hkey⟩

theorem possible_of_trace {e : Socket.Entry} (hrun : Run (machine strategy) ok init ls s)
    (he : e ∈ s.socket.trace) : e.Possible := by
  obtain ⟨ks, hks⟩ := socket_run hrun
  exact Socket.possible_of_run hks e he

theorem ChannelStep.leavesTaken (h : ChannelStep s s' c w label w') (hl : l ∈ w'.leavesTaken) :
    l ∈ w.leavesTaken ∨ label = .poll c ∧ Channel.TakesLeave w l := by
  cases h with
  | user | stateCommand | sendCommand => exact .inl hl
  | poll hpoll => exact (hpoll.leavesTaken hl).imp_right fun h => ⟨rfl, h⟩
  | @forward call htask =>
      left
      simp only [Channel.World.leavesTaken, Channel.Task.leftTxs, List.filterMap_append,
        List.mem_append, htask, ← Channel.leftTxs_sent call s.fresh] at hl ⊢
      tauto
  | @fail call flow htask hrunning hflow =>
      left
      rw [Channel.mem_proceed_leavesTaken] at hl
      simp only [Channel.World.leavesTaken, htask, Channel.Task.leftTxs, List.mem_append]
      refine hl.imp_left fun hl => ?_
      rcases hflow with ⟨error, _, rfl⟩ | ⟨reason, _, rfl⟩
      · exact Channel.leftTxs_failed ▸ hl
      · cases hl
  | publish htask =>
      left
      simpa [Channel.World.leavesTaken, htask, Channel.Task.leftTxs, Channel.Task.select] using hl

theorem leavesTaken_spawn {listener : Channel.Listener} {before : Socket.State} {seen : Nat} :
    (Channel.World.spawn listener (Socket.channelState before) seen).leavesTaken = [] := by
  cases before <;> rfl

/-- A leave that was taken had been taken before, or its listener polls it. -/
theorem SystemStep.leaveTaken (h : SystemStep strategy s label s')
    (hrun : Run (machine strategy) ok init ls s)
    (hrun' : Run (machine strategy) ok init (ls ++ [label]) s') (hl : LeaveTaken s' c l) :
    LeaveTaken s c l ∨
      label = .poll c ∧ ∃ w, s.channels.lookup c = some w ∧ Channel.TakesLeave w l := by
  cases hl with
  | listener hw' hl =>
      cases h.channel_cases hw' with
      | kept hw => exact .inl (.listener hw hl)
      | stepped hw hstep =>
          rcases hstep.leavesTaken hl with hl | ⟨hlabel, htakes⟩
          · exact .inl (.listener hw hl)
          · exact .inr ⟨hlabel, _, hw, htakes⟩
      | spawned heffect hspawn =>
          subst hspawn
          obtain ⟨before, rfl⟩ := spawned_state hrun heffect
          rw [leavesTaken_spawn] at hl
          cases hl
  | @queued leave hmem hc hticket =>
      left
      rcases h.stateQueue_cases hmem with hmem | ⟨c', w, call, rfl, hw, htask, hcommand⟩
      · exact .queued hmem hc hticket
      · obtain ⟨href, htx⟩ := Channel.leave_of_command hcommand
        rw [joinReference_of_run hrun hw, hc] at href
        subst href
        refine .listener hw ?_
        simp [Channel.World.leavesTaken, htask, Channel.Task.leftTxs, ← hticket, htx]
  | @written id hmem hc =>
      left
      cases h.trace_cases with
      | kept htrace => exact .written (htrace ▸ hmem) hc
      | @selected event input taken e _ hreceive htrace hinput =>
          rw [htrace, Socket.written_append, List.mem_append] at hmem
          rcases hmem with hmem | hmem
          · exact .written hmem hc
          · have he := possible_of_trace hrun' (e := e) (by simp [htrace])
            obtain ⟨leave, rest, uuid, sent, _, hrx, hticket, hkey⟩ :=
              hreceive.leave_of_written hinput he hmem
            refine .queued (show .leave leave ∈ s.channelStateCommandRx by simp [hrx]) ?_ hticket
            rw [← hc, ← hkey]
            rfl

/-- All leaves have tickets that were given out. -/
structure LeavesOld (s : System) : Prop where
  taken {c : JoinReference} {l : TxId} : LeaveTaken s c l → l < s.fresh
  queued {c : JoinReference} {w : Channel.World} {l : TxId} : s.channels.lookup c = some w →
    .leave l ∈ w.stateCommandRx → l < s.fresh

theorem leavesOld_of_run (h : Run (machine strategy) ok init ls s) : LeavesOld s := by
  refine h.invariant_of_run (I := LeavesOld) ?_ ?_
  · constructor
    · intro c l hl
      cases hl with
      | listener hw => rw [lookup_init] at hw; cases hw
      | queued hmem => cases hmem
      | written hmem => cases hmem
    · intro c w l hw
      rw [lookup_init] at hw
      cases hw
  intro ls s label s' hrun ih hok hs
  have hstep := step_cases hs
  have hfresh := hstep.fresh_mono
  constructor
  · intro c l hl
    rcases hstep.leaveTaken hrun (.snoc hrun hok hs) hl with hl | ⟨_, w, hw, _, rest, hrx⟩
    · exact lt_of_lt_of_le (ih.taken hl) hfresh
    · exact lt_of_lt_of_le (ih.queued hw (by simp [hrx])) hfresh
  · intro c w' l hw' hl
    cases hstep.channel_cases hw' with
    | kept hw => exact lt_of_lt_of_le (ih.queued hw hl) hfresh
    | @stepped w hw h =>
        have older : .leave l ∈ w.stateCommandRx → l < s'.fresh := fun hl =>
          lt_of_lt_of_le (ih.queued hw hl) hfresh
        cases h with
        | user | sendCommand | forward | publish => exact older hl
        | stateCommand hrunning htx hnext =>
            rcases List.mem_append.mp hl with hl | hl
            · exact older hl
            · rw [← List.mem_singleton.mp hl] at htx
              rw [hnext, ← htx]
              exact Nat.lt_succ_self _
        | poll hpoll => exact older (hpoll.stateCommandRx hl)
        | @fail call flow =>
            cases flow with
            | next | call => exact older hl
            | exit | panic => cases hl
    | spawned _ h =>
        subst h
        cases hl

/-! ## Where the cast is -/

/-- A cast that was sent to the socket listener. -/
inductive CastSent (s : System) (c : JoinReference) (ticket : TxId) : Prop
  | queued {cast : Cast} : .cast cast ∈ s.channelSendCommandRx → cast.joinReference = c →
      cast.ticket = ticket → CastSent s c ticket
  | written : CastWritten s.socket.trace c ticket → CastSent s c ticket

theorem CastWritten.append {trace : List Socket.Entry} {e : Socket.Entry}
    (h : CastWritten trace c ticket) : CastWritten (trace ++ [e]) c ticket := by
  obtain ⟨id, hmem, hc⟩ := h
  refine ⟨id, ?_, hc⟩
  rw [Socket.written_append]
  exact List.mem_append_left _ hmem

theorem SystemStep.castWritten (h : SystemStep strategy s label s')
    (hwritten : CastWritten s.socket.trace c ticket) : CastWritten s'.socket.trace c ticket := by
  cases h.trace_cases with
  | kept htrace => exact htrace ▸ hwritten
  | selected _ _ htrace => exact htrace ▸ hwritten.append

/-- While the socket stays connected, a cast that was sent is queued until it is written. -/
theorem SystemStep.castSent (h : SystemStep strategy s label s')
    (hs : s.socket.task.isConnected = true) (hs' : s'.socket.task.isConnected = true)
    (hsent : CastSent s c ticket) : CastSent s' c ticket := by
  cases hsent with
  | written hwritten => exact .written (h.castWritten hwritten)
  | @queued cast hmem hc hticket =>
      cases h with
      | user _ h => cases h <;> exact .queued hmem hc hticket
      | @select event input taken socket hreceive hselect =>
          rw [setSocket_socket] at hs'
          rw [setSocket_of_running (isRunning_of_isConnected hs')]
          cases hreceive with
          | channelSendCommand hrx =>
              rw [hrx] at hmem
              rcases List.mem_cons.mp hmem with rfl | hmem
              · obtain ⟨id, hid, hkey⟩ := Socket.cast_written hselect hs hs'
                refine .written ⟨id, hticket ▸ hid, ?_⟩
                rw [hkey]
                exact hc
              · exact .queued hmem hc hticket
          | _ => exact .queued hmem hc hticket
      | @poll c w w' read => cases read <;> exact .queued hmem hc hticket
      | forwardSend => exact .queued (List.mem_append_left _ hmem) hc hticket
      | _ => exact .queued hmem hc hticket

/-- The queue of the socket takes the cast of a suspended handler. -/
theorem SystemStep.cast_forwarded (h : SystemStep strategy s (.forward c) s')
    (hrun : Run (machine strategy) ok init ls s) (hw : s.channels.lookup c = some w)
    {joined : Channel.Joined} {payload : EventPayload}
    (htask : w.task = .calling (.cast joined payload ticket)) : CastSent s' c ticket := by
  cases h with
  | user hlabel => cases hlabel
  | forwardState hw₁ htask₁ _ hcommand =>
      cases Option.some.inj (hw₁.symm.trans hw)
      cases htask₁.symm.trans htask
      cases hcommand
  | forwardSend hw₁ htask₁ _ hcommand =>
      cases Option.some.inj (hw₁.symm.trans hw)
      cases htask₁.symm.trans htask
      cases hcommand
      refine .queued (List.mem_append_right _ List.mem_cons_self) ?_ rfl
      exact joinReference_of_run hrun hw

/-- The cast is with its channel or was sent, or the channel has ended. -/
def CastLocated (s : System) (c : JoinReference) (ticket : TxId) : Prop :=
  ∃ w, s.channels.lookup c = some w ∧
    (Channel.CastHeld w ticket ∨ CastSent s c ticket ∨ w.task.isRunning = false)

theorem SystemStep.castLocated (h : SystemStep strategy s label s')
    (hrun : Run (machine strategy) ok init ls s) (hs : s.socket.task.isConnected = true)
    (hs' : s'.socket.task.isConnected = true) (hlocated : CastLocated s c ticket) :
    CastLocated s' c ticket := by
  obtain ⟨w, hw, hlocated⟩ := hlocated
  obtain ⟨w', hw', hchange⟩ := h.channel_next hrun hw
  refine ⟨w', hw', ?_⟩
  rcases hlocated with hheld | hsent | hended
  · rcases hchange with rfl | hstep
    · exact .inl hheld
    cases hstep with
    | user | stateCommand =>
        cases hheld with
        | queued hmem => exact .inl (.queued hmem)
        | calling htask => exact .inl (.calling htask)
    | sendCommand =>
        cases hheld with
        | queued hmem => exact .inl (.queued (List.mem_append_left _ hmem))
        | calling htask => exact .inl (.calling htask)
    | poll hpoll => exact (hpoll.castHeld hheld).imp_right .inr
    | forward htask =>
        cases hheld with
        | queued hmem => exact .inl (.queued hmem)
        | calling hcalling => exact .inr (.inl (h.cast_forwarded hrun hw hcalling))
    | fail htask hdead =>
        rw [isRunning_of_isConnected hs] at hdead
        cases hdead
    | publish htask =>
        cases hheld with
        | queued hmem => exact .inl (.queued hmem)
        | calling hcalling => cases htask.symm.trans hcalling
  · exact .inr (.inl (h.castSent hs hs' hsent))
  · right
    right
    rcases hchange with rfl | hstep
    · exact hended
    cases hstep with
    | user => exact hended
    | stateCommand hrunning | sendCommand hrunning =>
        rw [hrunning] at hended
        cases hended
    | poll hpoll =>
        rw [hpoll.isRunning] at hended
        cases hended
    | forward htask | fail htask | publish htask =>
        rw [htask] at hended
        cases hended

/-- A cast that has left its channel does not come back. -/
theorem SystemStep.castHeld_before (h : SystemStep strategy s label s') (hold : ticket < s.fresh)
    (hw' : s'.channels.lookup c = some w') (hheld : Channel.CastHeld w' ticket) :
    ∃ w, s.channels.lookup c = some w ∧ Channel.CastHeld w ticket := by
  cases h.channel_cases hw' with
  | kept hw => exact ⟨_, hw, hheld⟩
  | @stepped w hw hstep =>
      refine ⟨w, hw, ?_⟩
      cases hstep with
      | user | stateCommand =>
          cases hheld with
          | queued hmem => exact .queued hmem
          | calling htask => exact .calling htask
      | @sendCommand _ command hrunning hid =>
          cases hheld with
          | queued hmem =>
              rcases List.mem_append.mp hmem with hmem | hmem
              · exact .queued hmem
              · rw [← List.mem_singleton.mp hmem] at hid
                exact absurd hid (Nat.ne_of_lt hold)
          | calling htask => exact .calling htask
      | poll hpoll => exact hpoll.castHeld_before hheld
      | forward | publish =>
          cases hheld with
          | queued hmem => exact .queued hmem
          | calling htask => cases htask
      | @fail call flow htask hrunning hflow =>
          cases hheld with
          | queued hmem =>
              cases flow with
              | next | call => exact .queued hmem
              | exit | panic => cases hmem
          | calling hcalling =>
              rcases hflow with ⟨error, _, rfl⟩ | ⟨reason, _, rfl⟩
              · cases call with
                | join state => cases state <;> cases hcalling
                | _ => cases hcalling
              · cases hcalling
  | spawned _ hspawn =>
      subst hspawn
      cases hheld with
      | queued hmem => cases hmem
      | calling htask => cases htask

/-! ## The invariant -/

/-- A leave that was sent after the cast is taken only when the cast was sent to the socket
listener, and written only when the cast was. -/
structure CastAhead (s : System) (c : JoinReference) (ticket : TxId) : Prop where
  old : ticket < s.fresh
  located : CastLocated s c ticket
  taken {l : TxId} : ticket < l → LeaveTaken s c l → CastSent s c ticket ∧
    ∀ w, s.channels.lookup c = some w → ¬ Channel.CastHeld w ticket
  ahead : LeavesFollow c ticket s.socket.trace

/-- A listener that takes a leave takes it after the cast. -/
theorem CastAhead.sent_of_takes (h : CastAhead s c ticket) (hlt : ticket < l)
    (hw : s.channels.lookup c = some w) (htakes : Channel.TakesLeave w l)
    (hok : leavesAfter c ticket s (.poll c) = true) :
    CastSent s c ticket ∧ ¬ Channel.CastHeld w ticket := by
  obtain ⟨⟨state, rest, disabled, htask⟩, commands, hrx⟩ := htakes
  have hqueue : ∀ command ∈ w.sendCommandRx, command.cast? ≠ some ticket := by
    simpa [leavesAfter, hw, htask, hrx, hlt] using hok
  have hnotHeld : ¬ Channel.CastHeld w ticket := by
    intro hheld
    cases hheld with
    | queued hmem => exact hqueue _ hmem rfl
    | calling hcalling => cases htask.symm.trans hcalling
  obtain ⟨w₁, hw₁, hlocated⟩ := h.located
  cases Option.some.inj (hw₁.symm.trans hw)
  refine ⟨?_, hnotHeld⟩
  rcases hlocated with hheld | hsent | hended
  · exact absurd hheld hnotHeld
  · exact hsent
  · rw [htask] at hended
    cases hended

/-- A leave that is written finds the cast written. -/
theorem CastAhead.written_of_leave (h : CastAhead s c ticket) {leave : Leave}
    {rest : List ChannelStateCommand} {uuid : Uuid} {sent : Except WebSocketError Unit}
    (hrx : s.channelStateCommandRx = .leave leave :: rest) (hc : leave.joinReference = c)
    (hlt : ticket < leave.ticket)
    (hok : leavesAfter c ticket s (.select (.channelStateCommand uuid sent)) = true) :
    CastWritten s.socket.trace c ticket := by
  have hqueue : ∀ command ∈ s.channelSendCommandRx, command.cast? ≠ some ticket := by
    simpa [leavesAfter, hrx, hc, hlt] using hok
  have hqueued : .leave leave ∈ s.channelStateCommandRx := by simp [hrx]
  have hsent := (h.taken hlt (.queued hqueued hc rfl)).1
  cases hsent with
  | queued hmem _ hticket =>
      exact absurd (congrArg some hticket) (hqueue _ hmem)
  | written hwritten => exact hwritten

theorem CastAhead.step (h : CastAhead s c ticket) (hstep : SystemStep strategy s label s')
    (hrun : Run (machine strategy) ok init ls s)
    (hrun' : Run (machine strategy) ok init (ls ++ [label]) s')
    (hok : leavesAfter c ticket s label = true) (hs : s.socket.task.isConnected = true)
    (hs' : s'.socket.task.isConnected = true) : CastAhead s' c ticket where
  old := lt_of_lt_of_le h.old hstep.fresh_mono
  located := hstep.castLocated hrun hs hs' h.located
  taken := by
    intro l hlt hl
    have hbefore : CastSent s c ticket ∧
        ∀ w, s.channels.lookup c = some w → ¬ Channel.CastHeld w ticket := by
      rcases hstep.leaveTaken hrun hrun' hl with hl | ⟨rfl, w, hw, htakes⟩
      · exact h.taken hlt hl
      · obtain ⟨hsent, hheld⟩ := h.sent_of_takes hlt hw htakes hok
        refine ⟨hsent, fun w' hw' => ?_⟩
        cases Option.some.inj (hw'.symm.trans hw)
        exact hheld
    refine ⟨hstep.castSent hs hs' hbefore.1, fun w' hw' hheld => ?_⟩
    obtain ⟨w, hw, hheld⟩ := hstep.castHeld_before h.old hw' hheld
    exact hbefore.2 w hw hheld
  ahead := by
    cases hstep.trace_cases with
    | kept htrace => exact htrace ▸ h.ahead
    | @selected event input taken e hlabel hreceive htrace hinput =>
        rw [htrace]
        refine h.ahead.append fun id l hmem hc hlt => ?_
        have he := possible_of_trace hrun' (e := e) (by simp [htrace])
        obtain ⟨leave, rest, uuid, sent, rfl, hrx, rfl, hkey⟩ :=
          hreceive.leave_of_written hinput he hmem
        subst hlabel
        exact h.written_of_leave hrx (hc ▸ congrArg Socket.JoinKey.joinReference hkey) hlt hok

/-! ## From the cast on -/

theorem casting_of_any {i : Nat} (h : s.operations[i]?.any (fun op => isCasting op c) = true) :
    ∃ payload createdAt, s.operations[i]? = some ⟨.channelCast c payload, createdAt, .sending⟩ := by
  obtain ⟨op, hop, hcasting⟩ := (Option.any_eq_true _ _).mp h
  obtain ⟨request, createdAt, phase⟩ := op
  unfold isCasting at hcasting
  split at hcasting
  · rename_i c' payload hrequest hphase
    obtain rfl : c' = c := by simpa using hcasting
    subst hrequest hphase
    exact ⟨payload, createdAt, hop⟩
  · cases hcasting

/-- A cast that returns `Ok` is in the queue of its channel. -/
theorem CastReturns.queued {i : Nat} (h : CastReturns strategy s i c s') :
    ∃ w payload, s.channels.lookup c = some w ∧ s'.socket = s.socket ∧ s'.fresh = s.fresh + 1 ∧
      s'.channels.lookup c =
        some { w with sendCommandRx := w.sendCommandRx ++ [.cast payload s.fresh] } := by
  obtain ⟨hsending, hstep, hreturned⟩ := h
  obtain ⟨payload, createdAt, hop⟩ := casting_of_any hsending
  simp only [machine, System.step, advanceStep, hop, Request.channel?] at hstep
  split at hstep
  · rename_i w hw
    simp only [sendToChannel] at hstep
    split at hstep
    · split at hstep
      · cases hstep
        exact ⟨w, payload, hw, rfl, rfl, lookup_setChannel.trans (if_pos rfl)⟩
      · cases hstep
    · -- the channel has ended, and the call turns to its join handle
      cases hstep
      obtain ⟨hi, _⟩ := List.getElem?_eq_some_iff.mp hop
      simp only [setPhase, List.getElem?_set_self hi] at hreturned
      cases hreturned
  · cases hstep

theorem CastReturns.castAhead {i : Nat} (h : CastReturns strategy s i c s')
    (hrun : Run (machine strategy) Free init ls s) : CastAhead s' c s.fresh := by
  obtain ⟨w, payload, hw, hsocket, hfresh, hw'⟩ := h.queued
  have hrun' : Run (machine strategy) Free init (ls ++ [.advance i]) s' := hrun.snoc trivial h.step
  have hold : ∀ l, LeaveTaken s' c l → l < s.fresh := by
    intro l hl
    rcases (step_cases h.step).leaveTaken hrun hrun' hl with hl | ⟨hlabel, _⟩
    · exact (leavesOld_of_run hrun).taken hl
    · cases hlabel
  constructor
  · rw [hfresh]
    exact Nat.lt_succ_self _
  · exact ⟨_, hw', .inl (.queued (List.mem_append_right _ List.mem_cons_self))⟩
  · intro l hlt hl
    exact absurd (hold l hl) (Nat.lt_asymm hlt)
  · intro before e after htrace id l hmem hc hlt
    have hwritten : (id, .leave l) ∈ Socket.written s'.socket.trace := by
      rw [htrace]
      exact List.mem_flatMap.mpr ⟨e, by simp, hmem⟩
    exact absurd (hold l (.written hwritten hc)) (Nat.lt_asymm hlt)

/-- Where the socket stays connected to the end of a step, it was so before the step. -/
theorem ConnectionKept.before {s₀ : System} {ks : List Label} (h : ConnectionKept s₀ s')
    (h₀ : Run (machine strategy) Free init ls s₀) (hrun : Run (machine strategy) ok s₀ ks s)
    (hs : (machine strategy).step s label = some s') : ConnectionKept s₀ s := by
  have hstep := step_cases hs
  have hall : Run (machine strategy) Free init (ls ++ ks) s := h₀.trans hrun.free
  have hafter : Socket.connectivities s.socket.effects <+:
      Socket.connectivities s'.socket.effects := hstep.effects.filterMap _
  have hbefore : Socket.connectivities s₀.socket.effects <+:
      Socket.connectivities s.socket.effects := (effects_of_run hrun).filterMap _
  have hunchanged : Socket.connectivities s.socket.effects =
      Socket.connectivities s₀.socket.effects :=
    (hbefore.eq_of_length_le (h.unchanged ▸ hafter.length_le)).symm
  have hrunning' := isRunning_of_isConnected h.connected
  refine ⟨?_, hunchanged⟩
  rw [connected_iff_last hall (hstep.running hrunning'), hunchanged, ← h.unchanged,
    ← connected_iff_last (hall.snoc trivial hs) hrunning']
  exact h.connected

theorem castAhead_of_run {i : Nat} {s₁ s₂ s₃ : System} {ls₁ ls₂ : List Label}
    (h₁ : Run (machine strategy) Free init ls₁ s₁) (hcast : CastReturns strategy s₁ i c s₂)
    (h₂ : Run (machine strategy) (fun s l => leavesAfter c s₁.fresh s l = true) s₂ ls₂ s₃)
    (hkept : ConnectionKept s₂ s₃) : CastAhead s₃ c s₁.fresh := by
  have hinit : Run (machine strategy) Free init (ls₁ ++ [.advance i]) s₂ :=
    h₁.snoc trivial hcast.step
  refine h₂.invariant_of_run (I := fun s => ConnectionKept s₂ s → CastAhead s c s₁.fresh) ?_ ?_ hkept
  · exact fun _ => hcast.castAhead h₁
  intro ls s label s' hrun ih hok hs hkept'
  have hkept := hkept'.before hinit hrun hs
  have hall : Run (machine strategy) Free init _ s := hinit.trans hrun.free
  exact (ih hkept).step (step_cases hs) hall (hall.snoc trivial hs) hok hkept.connected
    hkept'.connected

end System

end PhoenixChannels
