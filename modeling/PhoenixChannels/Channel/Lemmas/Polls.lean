import PhoenixChannels.Channel.World

/-!
# What one poll of a channel listener can do
-/

namespace PhoenixChannels.Channel

/-- The branches that are ready, with the listener after the receive and the handler's outcome. -/
inductive BranchReady (env : Surroundings) (w : World) : State → Branch → World → Flow → Prop
  | shutdown {state} : w.shutdownRx = true →
      BranchReady env w state .shutdown w (.next (shutdown state).1 (shutdown state).2)
  | connectivity {state connectivity seen} :
      env.connectivity.recv w.seen = (.message connectivity, seen) →
      BranchReady env w state .connectivity { w with seen := seen }
        (.next (connectivityChanged env.now state connectivity).1
          (connectivityChanged env.now state connectivity).2)
  | socketJoined {joining result} :
      env.joined joining.socketJoinedRx = .sent result →
      BranchReady env w (.joining joining) .socketJoined w
        (.next (joinedResultReceived env.now joining result).1
          (joinedResultReceived env.now joining result).2)
  | socketJoinedClosed {joining} :
      env.joined joining.socketJoinedRx = .closed →
      BranchReady env w (.joining joining) .socketJoined w
        (socketShutdown (.joining joining) .alreadyJoined)
  | left {joined} : env.memberLeft joined.leftRx = .sent () →
      BranchReady env w (.joined joined) .left w (.next .left [])
  | socketLeft {leaving result} : env.left leaving.socketLeftRx = .sent result →
      BranchReady env w (.leaving leaving) .socketLeft w
        (.next (leaving.left result).1 (leaving.left result).2)
  | sleep {sleep r} : sleep ≤ env.now →
      BranchReady env w (.waitingToRejoin sleep r) .sleep w
        (rejoin env.now (.waitingToRejoin sleep r) r)
  | stateCommand {state command rest} : w.stateCommandRx = command :: rest →
      BranchReady env w state .stateCommand { w with stateCommandRx := rest }
        (updateState env.now state command)
  | sendCommand {joined command rest} : w.sendCommandRx = command :: rest →
      BranchReady env w (.joined joined) .sendCommand { w with sendCommandRx := rest }
        (send joined command)
  | push {joined push rest} : env.pushes joined.pushRx = push :: rest →
      BranchReady env w (.joined joined) .push w
        (.next (pushReceived env.now joined push).1 (pushReceived env.now joined push).2)
  | broadcast {joined broadcast next} :
      (env.broadcasts joined.broadcastRx.tx).recv joined.broadcastRx.next =
        (.message broadcast, next) →
      BranchReady env w (.joined joined) .broadcast w
        (.next (.joined { joined with broadcastRx := { joined.broadcastRx with next := next } })
          [.event broadcast.eventPayload])

/-- What a branch that gives no match moves: the position of a lagging receiver. -/
inductive BranchMismatch (env : Surroundings) (w : World) : State → Branch → World → State → Prop
  | lagged {state missed seen} : env.connectivity.recv w.seen = (.lagged missed, seen) →
      BranchMismatch env w state .connectivity { w with seen := seen } state
  | closed {state branch} : (branch = .connectivity →
        env.connectivityClosed = true ∧ (env.connectivity.recv w.seen).1 = .empty) →
      BranchMismatch env w state branch w state
  | broadcastLagged {joined next} :
      BranchMismatch env w (.joined joined) .broadcast w
        (.joined { joined with broadcastRx := { joined.broadcastRx with next := next } })

variable {env : Surroundings} {w w' : World} {state : State} {branch : Branch}
variable {read : Option TxId}

/-- The outcome of a poll, given by the two relations. -/
inductive PollCase (env : Surroundings) (w : World) (state : State) (branch : Branch) :
    World.Polled → Prop
  | pending : PollCase env w state branch .pending
  | mismatch {w' state'} : BranchMismatch env w state branch w' state' →
      PollCase env w state branch (.mismatch w' state')
  | ready {w' flow} : BranchReady env w state branch w' flow →
      PollCase env w state branch (.ready w' flow)

theorem PollCase.closed {b : Bool}
    (h : branch = .connectivity → b = true →
      env.connectivityClosed = true ∧ (env.connectivity.recv w.seen).1 = .empty) :
    PollCase env w state branch (if b = true then .mismatch w state else .pending) := by
  cases b with
  | true => exact .mismatch (.closed fun hb => h hb rfl)
  | false => exact .pending

theorem pollBranch_cases : PollCase env w state branch (w.pollBranch env state branch) := by
  cases branch with
  | shutdown =>
      simp only [World.pollBranch]
      split
      · exact .ready (.shutdown ‹_›)
      · exact .pending
  | connectivity =>
      simp only [World.pollBranch]
      split
      · rename_i connectivity seen hrecv
        exact .ready (.connectivity hrecv)
      · rename_i missed seen hrecv
        exact .mismatch (.lagged hrecv)
      · rename_i hrecv
        exact .closed fun _ h => ⟨h, by rw [hrecv]⟩
  | socketJoined =>
      cases state with
      | joining joining =>
          simp only [World.pollBranch]
          split
          · exact .ready (.socketJoined ‹_›)
          · exact .ready (.socketJoinedClosed ‹_›)
          · exact .pending
      | _ => exact .pending
  | left =>
      cases state with
      | joined joined =>
          simp only [World.pollBranch]
          split
          · exact .ready (.left ‹_›)
          · exact .mismatch (.closed nofun)
          · exact .pending
      | _ => exact .pending
  | socketLeft =>
      cases state with
      | leaving leaving =>
          simp only [World.pollBranch]
          split
          · exact .ready (.socketLeft ‹_›)
          · exact .mismatch (.closed nofun)
          · exact .pending
      | _ => exact .pending
  | sleep =>
      cases state with
      | waitingToRejoin sleep r =>
          simp only [World.pollBranch]
          split
          · exact .ready (.sleep ‹_›)
          · exact .pending
      | _ => exact .pending
  | stateCommand =>
      simp only [World.pollBranch]
      split
      · exact .ready (.stateCommand ‹_›)
      · exact .closed nofun
  | sendCommand =>
      simp only [World.pollBranch]
      split
      · rename_i joined command rest hrx
        exact .ready (.sendCommand hrx)
      · exact .closed nofun
  | push =>
      cases state with
      | joined joined =>
          simp only [World.pollBranch]
          split
          · exact .ready (.push ‹_›)
          · exact .closed nofun
      | _ => exact .pending
  | broadcast =>
      cases state with
      | joined joined =>
          simp only [World.pollBranch]
          split
          · rename_i broadcast next hrecv
            exact .ready (.broadcast hrecv)
          · exact .mismatch .broadcastLagged
          · exact .closed nofun
      | _ => exact .pending

/-! ## One poll -/

/-- All that one poll can come to. -/
inductive PollStep (env : Surroundings) (w : World) : World → Option TxId → Prop
  | breakOk {state disabled} : w.task = .selecting state [] disabled →
      state.branches.all (fun branch => branch ∈ disabled) = true →
      PollStep env w w.breakOk none
  /-- Nothing was ready: the next round begins with the branches that are not disabled. -/
  | round {state disabled} : w.task = .selecting state [] disabled →
      PollStep env w { w with
        task := .selecting state
          (state.branches.filter (fun branch => branch ∉ disabled)) disabled } none
  | pending {state branch rest disabled} : w.task = .selecting state (branch :: rest) disabled →
      w.pollBranch env state branch = .pending →
      PollStep env w { w with task := .selecting state rest disabled } none
  | mismatch {state branch rest disabled w' state'} :
      w.task = .selecting state (branch :: rest) disabled →
      BranchMismatch env w state branch w' state' →
      w.pollBranch env state branch = .mismatch w' state' →
      PollStep env w { w' with task := .selecting state' rest (branch :: disabled) } none
  | ready {state branch rest disabled w' flow} :
      w.task = .selecting state (branch :: rest) disabled →
      BranchReady env w state branch w' flow →
      PollStep env w (w'.proceed flow) (World.pushRead state branch)

theorem poll_cases (h : w.poll env = some (w', read)) : PollStep env w w' read := by
  unfold World.poll at h
  split at h
  · rename_i state rest disabled htask
    split at h
    · split at h
      · cases h
        exact .breakOk htask ‹_›
      · cases h
        exact .round htask
    · rename_i branch rest
      have hcases : PollCase env w state branch (w.pollBranch env state branch) :=
        pollBranch_cases
      split at h <;> rename_i hpoll <;> rw [hpoll] at hcases <;> cases h <;> cases hcases
      · exact .pending htask hpoll
      · exact .mismatch htask ‹_› hpoll
      · exact .ready htask ‹_›
  · cases h

theorem BranchReady.effects {flow : Flow} (h : BranchReady env w state branch w' flow) :
    w'.effects = w.effects := by
  cases h <;> rfl

theorem proceed_effects_grow (flow : Flow) : w.effects <+: (w.proceed flow).effects := by
  cases flow with
  | next | exit => exact List.prefix_append _ _
  | call => exact List.prefix_refl _
  | panic => simp [World.proceed, World.finish]

theorem PollStep.effects_grow (h : PollStep env w w' read) : w.effects <+: w'.effects := by
  cases h with
  | breakOk => simp [World.breakOk, World.finish]
  | round | pending => exact List.prefix_refl _
  | mismatch _ hmismatch => cases hmismatch <;> exact List.prefix_refl _
  | ready _ hready =>
      rw [← hready.effects]
      exact proceed_effects_grow _

theorem PollStep.isRunning (h : PollStep env w w' read) : w.task.isRunning = true := by
  cases h with
  | breakOk htask | round htask | pending htask | mismatch htask | ready htask => rw [htask]; rfl

theorem PollStep.stateCommandRx (h : PollStep env w w' read) :
    w'.stateCommandRx ⊆ w.stateCommandRx := by
  cases h with
  | breakOk => exact List.nil_subset _
  | round | pending => exact List.Subset.refl _
  | mismatch _ hmismatch => cases hmismatch <;> exact List.Subset.refl _
  | @ready state branch rest disabled w₁ flow _ hready =>
      have hqueue : w₁.stateCommandRx ⊆ w.stateCommandRx := by
        cases hready with
        | stateCommand hrx =>
            rw [hrx]
            exact List.subset_cons_self _ _
        | _ => exact List.Subset.refl _
      cases flow with
      | next | call => exact hqueue
      | exit | panic => exact List.nil_subset _

/-! ## Calls into the socket -/

/-- How a branch that is ready comes to a call into the socket: it joins, or it sends the command
that it took. -/
inductive CallCase (w : World) : State → Branch → SocketCall → Prop
  | join {state branch leaves deadline rejoin txs} :
      CallCase w state branch (.join leaves deadline rejoin txs)
  | leaveJoining {joining tx rest} : w.stateCommandRx = .leave tx :: rest →
      CallCase w (.joining joining) .stateCommand (.leaveJoining joining tx)
  | leaveJoined {joined tx rest} : w.stateCommandRx = .leave tx :: rest →
      CallCase w (.joined joined) .stateCommand (.leaveJoined joined tx)
  | cast {joined eventPayload ticket rest} : w.sendCommandRx = .cast eventPayload ticket :: rest →
      CallCase w (.joined joined) .sendCommand (.cast joined eventPayload ticket)
  | call {joined eventPayload replyTx rest} : w.sendCommandRx = .call eventPayload replyTx :: rest →
      CallCase w (.joined joined) .sendCommand (.call joined eventPayload replyTx)

theorem join_call {now createdAt : Instant} {timeout : Duration} {tx : TxId} {call : SocketCall}
    (h : join now state createdAt timeout tx = .call call) :
    ∃ leaves deadline rejoin txs, call = .join leaves deadline rejoin txs := by
  cases state <;>
    simp only [join, socketJoinIfNotTimedOut, socketJoin, reduceCtorEq] at h <;>
    split at h <;> cases h <;> exact ⟨_, _, _, _, rfl⟩

theorem BranchReady.call_cases {flow : Flow} {call : SocketCall}
    (h : BranchReady env w state branch w' flow) (hflow : flow = .call call) :
    CallCase w state branch call := by
  cases h with
  | sleep =>
      cases hflow
      exact .join
  | @stateCommand state command rest hrx =>
      cases command with
      | join createdAt timeout tx =>
          obtain ⟨leaves, deadline, rejoin, txs, rfl⟩ := join_call hflow
          exact .join
      | leave tx =>
          cases state <;> cases hflow
          · exact .leaveJoining hrx
          · exact .leaveJoined hrx
  | @sendCommand joined command rest hrx =>
      cases command <;> cases hflow
      · exact .cast hrx
      · exact .call hrx
  | _ => cases hflow

end PhoenixChannels.Channel
