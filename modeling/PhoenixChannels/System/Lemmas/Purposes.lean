import PhoenixChannels.Channel.Lemmas.Uses
import PhoenixChannels.System.Lemmas.Commands
import PhoenixChannels.System.Lemmas.Shutdowns

/-!
# What senders were made for

Each sender is made by one step, for one call of a user or for one command of a channel listener.
Wherever it goes, through queues, listeners and answers, it is used for nothing else.
-/

namespace PhoenixChannels

/-- The timeout that a call comes with. -/
def Request.timeout? : Request → Option Duration
  | .connect timeout | .channelJoin _ timeout | .channelCall _ _ timeout => some timeout
  | _ => none

/-- What a sender was made for. -/
inductive Purpose
  /-- The call of a user with that number. -/
  | request (operation : Nat) (request : Request)
  /-- A command of a channel listener to the socket. -/
  | command (command : ChannelStateCommand)

/-- What is done with a sender, its receiver or a ticket. -/
inductive Use
  | connect
  | disconnect
  | spawn (topic : Topic) (payload : Option Payload)
  | channel (channel : JoinReference) (use : Channel.Use)
  | command (command : ChannelStateCommand)
  /-- A call of a user waits for its result. -/
  | result (operation : Nat) (request : Request)

/-- The use is one that the sender was made for. -/
inductive Use.Suits : Use → Purpose → Prop
  | connect {i timeout} : Suits .connect (.request i (.connect timeout))
  | disconnect {i} : Suits .disconnect (.request i .disconnect)
  | spawn {i topic payload} : Suits (.spawn topic payload) (.request i (.channel topic payload))
  | join {i c timeout} : Suits (.channel c .join) (.request i (.channelJoin c timeout))
  | leave {i c} : Suits (.channel c .leave) (.request i (.channelLeave c))
  | cast {i c eventPayload} :
      Suits (.channel c (.cast eventPayload)) (.request i (.channelCast c eventPayload))
  | call {i c eventPayload timeout} :
      Suits (.channel c (.call eventPayload)) (.request i (.channelCall c eventPayload timeout))
  | awaits {c} {command : ChannelStateCommand} : command.joinReference = c →
      Suits (.channel c .awaits) (.command command)
  | command {command : ChannelStateCommand} : Suits (.command command) (.command command)
  | result {i request} : Suits (.result i request) (.request i request)

/-! ## The uses of senders -/

def Socket.StateCommand.use? : Socket.StateCommand → Option (TxId × Use)
  | connect c => some (c.connectedTx, .connect)
  | disconnect tx => some (tx, .disconnect)
  | shutdown => none

def Socket.ChannelSpawn.use (spawn : Socket.ChannelSpawn) : TxId × Use :=
  (spawn.sender, .spawn spawn.topic spawn.payload)

def ChannelStateCommand.use (command : ChannelStateCommand) : TxId × Use :=
  (command.tx, .command command)

def ChannelSendCommand.use : ChannelSendCommand → TxId × Use
  | call c => (c.replyTx, .channel c.joinReference (.call c.eventPayload))
  | cast c => (c.ticket, .channel c.joinReference (.cast c.eventPayload))

def Socket.Input.use? : Socket.Input → Option (TxId × Use)
  | channelSpawn spawn _ _ => some spawn.use
  | stateCommand command _ => command.use?
  | channelStateCommand command _ _ => some command.use
  | channelSendCommand command _ _ => some command.use
  | _ => none

/-- The commands that the socket listener took. -/
def Socket.takenUses (trace : List Socket.Entry) : List (TxId × Use) :=
  trace.filterMap fun e => e.input.use?

namespace System

open Machine

/-- The commands that wait in the queues of the socket. -/
def queuedUses (s : System) : List (TxId × Use) :=
  s.stateCommandRx.filterMap Socket.StateCommand.use?
    ++ s.channelSpawnRx.map Socket.ChannelSpawn.use
    ++ s.channelStateCommandRx.map ChannelStateCommand.use
    ++ s.channelSendCommandRx.map ChannelSendCommand.use

/-- All that is done with senders, what was done included. -/
inductive Uses (s : System) : TxId → Use → Prop
  | queued {tx use} : (tx, use) ∈ s.queuedUses → Uses s tx use
  | taken {tx use} : (tx, use) ∈ Socket.takenUses s.socket.trace → Uses s tx use
  | channel {c w tx use} : s.channels.lookup c = some w → (tx, use) ∈ w.uses →
      Uses s tx (.channel c use)
  | result {i op tx deadline} : s.operations[i]? = some op → op.phase = .waiting tx deadline →
      Uses s tx (.result i op.request)

/-- The sender that a step makes, with what it is for. -/
def made (s : System) : Label → Option (TxId × Purpose)
  | .advance i =>
      match s.operations[i]? with
      | some op =>
          match op.phase with
          | .sending =>
              if s.listenerEnded op.request.channel? || op.request.isShutdown then none
              else some (s.fresh, .request i op.request)
          | _ => none
      | none => none
  | .forward c =>
      match s.channels.lookup c with
      | some w =>
          match w.task with
          | .calling call =>
              match call.command w.listener s.fresh with
              | .inl command => some (s.fresh, .command command)
              | .inr _ => none
          | _ => none
      | none => none
  | _ => none

/-- All senders that were made, in order. -/
def makings (past : List (System × Label)) : List (TxId × Purpose) :=
  past.filterMap fun (s, label) => s.made label

variable {strategy : Option (Nat → Duration)} {s s' taken : System} {label : Label}
variable {ok : System → Label → Prop} {ls : List Label} {c : JoinReference} {tx : TxId} {use : Use}
variable {w w' : Channel.World} {event : SocketEvent} {input : Socket.Input} {i : Nat}
variable {op : Operation} {phase : Phase} {past : List (System × Label)} {purpose : Purpose}

theorem makings_snoc : makings (past ++ [(s, label)]) = makings past ++ (s.made label).toList := by
  cases h : s.made label <;> simp [makings, h]

/-! ## The steps of a call -/

/-- Where a call goes on to by itself, when its command is in the queue or could not be sent. -/
inductive OwnPhase (s : System) (op : Operation) : Phase → Prop
  | closing : OwnPhase s op .closing
  | joining : OwnPhase s op .joining
  | answered {tx deadline result} : op.phase = .waiting tx deadline → s.result tx = .sent result →
      OwnPhase s op (.returned result)
  | socketJoined : op.request.channel? = none →
      OwnPhase s op (.returned (.error (.socketShutdown .alreadyJoined)))
  | channelJoined : op.request.channel?.isSome = true →
      OwnPhase s op (.returned (.error (.channelShutdown .alreadyJoined)))
  | ended {result} : s.taskResult op = some result → OwnPhase s op (afterShutdown op.request result)

/-- What a call does when it goes on. -/
inductive AdvanceStep (s : System) (i : Nat) (op : Operation) : System → Prop
  | socketCommand {command use deadline} : op.phase = .sending → op.request.channel? = none →
      s.socket.task.isRunning = true → command.use? = some (s.fresh, use) →
      use.Suits (.request i op.request) → deadline.isSome = op.request.timeout?.isSome →
      AdvanceStep s i op (setPhase { s with
        fresh := s.fresh + 1
        stateCommandRx := s.stateCommandRx ++ [command] } i op (.waiting s.fresh deadline))
  | shutdown : op.phase = .sending → op.request = .shutdown → s.socket.task.isRunning = true →
      AdvanceStep s i op (setPhase { s with
        fresh := s.fresh + 1
        stateCommandRx := s.stateCommandRx ++ [.shutdown] } i op .closing)
  | channelSpawn {topic payload} : op.phase = .sending → op.request = .channel topic payload →
      s.socket.task.isRunning = true →
      AdvanceStep s i op (setPhase { s with
        fresh := s.fresh + 1
        channelSpawnRx := s.channelSpawnRx ++ [⟨topic, payload, s.fresh⟩] } i op
          (.waiting s.fresh none))
  | stateCommand {c w command use deadline} : op.phase = .sending →
      op.request.channel? = some c → s.channels.lookup c = some w → w.task.isRunning = true →
      command.use = (s.fresh, use) → (Use.channel c use).Suits (.request i op.request) →
      deadline.isSome = op.request.timeout?.isSome →
      AdvanceStep s i op (setPhase (setChannel { s with fresh := s.fresh + 1 } c
        { w with stateCommandRx := w.stateCommandRx ++ [command] }) i op (.waiting s.fresh deadline))
  | cast {c w eventPayload} : op.phase = .sending → op.request = .channelCast c eventPayload →
      s.channels.lookup c = some w → w.task.isRunning = true →
      AdvanceStep s i op (setPhase (setChannel { s with fresh := s.fresh + 1 } c
        { w with sendCommandRx := w.sendCommandRx ++ [.cast eventPayload s.fresh] }) i op
          (.returned (.ok none)))
  | call {c w eventPayload timeout deadline} : op.phase = .sending →
      op.request = .channelCall c eventPayload timeout →
      s.channels.lookup c = some w → w.task.isRunning = true →
      AdvanceStep s i op (setPhase (setChannel { s with fresh := s.fresh + 1 } c
        { w with sendCommandRx := w.sendCommandRx ++ [.call eventPayload s.fresh] }) i op
          (.waiting s.fresh (some deadline)))
  | channel {c w shutdownRx joinHandle next} : s.channels.lookup c = some w →
      OwnPhase s op next → s.made (.advance i) = none →
      AdvanceStep s i op
        (setPhase (s.setChannel c { w with shutdownRx, joinHandle }) i op next)
  | handle : s.made (.advance i) = none →
      AdvanceStep s i op (setPhase { s with joinHandle := false } i op .joining)
  | caller {next} : OwnPhase s op next → s.made (.advance i) = none →
      AdvanceStep s i op (s.setPhase i op next)

theorem OwnPhase.ne_waiting {next : Phase} (h : OwnPhase s op next) (tx : TxId)
    (deadline : Option Instant) : next ≠ .waiting tx deadline := by
  cases h with
  | @ended result =>
      unfold afterShutdown
      repeat' split
      all_goals nofun
  | _ => nofun

theorem made_of_sending (hop : s.operations[i]? = some op) (hphase : op.phase = .sending)
    (hrunning : s.listenerEnded op.request.channel? = false)
    (hshutdown : op.request.isShutdown = false) :
    s.made (.advance i) = some (s.fresh, .request i op.request) := by
  simp [made, hop, hphase, hrunning, hshutdown]

theorem made_of_phase (hop : s.operations[i]? = some op) (hphase : op.phase ≠ .sending) :
    s.made (.advance i) = none := by
  simp only [made, hop]

theorem sendToSocket_advance (hop : s.operations[i]? = some op) (hphase : op.phase = .sending)
    (hsocket : op.request.channel? = none) (h : s.sendToSocket i op = some s') :
    AdvanceStep s i op s' := by
  unfold sendToSocket at h
  simp only [] at h
  split at h
  · rename_i hrunning
    split at h <;> rename_i hrequest
    · split at h <;> cases h
      exact .socketCommand hphase hsocket hrunning rfl (hrequest ▸ .connect)
        (by simp [hrequest, Request.timeout?])
    · split at h <;> cases h
      exact .socketCommand hphase hsocket hrunning rfl (hrequest ▸ .disconnect)
        (by simp [hrequest, Request.timeout?])
    · split at h <;> cases h
      exact .shutdown hphase hrequest hrunning
    · split at h <;> cases h
      exact .channelSpawn hphase hrequest hrunning
    · cases h
  · rename_i hended
    cases h
    refine .caller .closing ?_
    simp [made, hop, hphase, hsocket, listenerEnded, hended]

theorem sendToChannel_advance (hop : s.operations[i]? = some op) (hphase : op.phase = .sending)
    (hchannel : op.request.channel? = some c) (hw : s.channels.lookup c = some w)
    (h : s.sendToChannel i op c w = some s') : AdvanceStep s i op s' := by
  unfold sendToChannel at h
  simp only [] at h
  split at h <;> rename_i hrequest
  · cases h
    refine .channel hw .closing ?_
    simp [made, hop, hphase, hrequest, Request.isShutdown]
  · split at h
    · rename_i hrunning
      split at h <;> rename_i hrequest <;>
        (try cases Option.some.inj ((congrArg Request.channel? hrequest).symm.trans hchannel))
      · split at h <;> cases h
        exact .stateCommand hphase hchannel hw hrunning rfl (hrequest ▸ .join)
          (by simp [hrequest, Request.timeout?])
      · split at h <;> cases h
        exact .stateCommand hphase hchannel hw hrunning rfl (hrequest ▸ .leave)
          (by simp [hrequest, Request.timeout?])
      · split at h <;> cases h
        exact .cast hphase hrequest hw hrunning
      · split at h <;> cases h
        exact .call hphase hrequest hw hrunning
      · cases h
    · rename_i hended
      cases h
      refine .caller .closing ?_
      simp [made, hop, hphase, hchannel, listenerEnded, hw, hended]

theorem takeHandle_advance (hop : s.operations[i]? = some op) (hphase : op.phase = .closing)
    (h : s.takeHandle i op = some s') : AdvanceStep s i op s' := by
  have hmade : s.made (.advance i) = none := made_of_phase hop (by simp [hphase])
  unfold takeHandle at h
  split at h
  · split at h <;> cases h
    · exact .handle hmade
    · exact .caller (.socketJoined ‹_›) hmade
  · rename_i c hchannel
    split at h
    · rename_i w hw
      split at h <;> cases h
      · exact .channel hw .joining hmade
      · exact .caller (.channelJoined (by simp [hchannel])) hmade
    · cases h

theorem advance_cases (h : (machine strategy).step s (.advance i) = some s') :
    ∃ op, s.operations[i]? = some op ∧ AdvanceStep s i op s' := by
  simp only [machine, step, advanceStep] at h
  split at h
  · rename_i op hop
    refine ⟨op, hop, ?_⟩
    split at h <;> rename_i hphase
    · split at h
      · exact sendToSocket_advance hop hphase ‹_› h
      · split at h
        · exact sendToChannel_advance hop hphase ‹_› ‹_› h
        · cases h
    · have hmade : s.made (.advance i) = none := made_of_phase hop (by simp [hphase])
      split at h <;> cases h
      · exact .caller (.answered hphase ‹_›) hmade
      · exact .caller .closing hmade
    · exact takeHandle_advance hop hphase h
    · obtain ⟨result, hresult, rfl⟩ := Option.map_eq_some_iff.mp h
      exact .caller (.ended hresult) (made_of_phase hop (by simp [hphase]))
    · cases h
    · cases h
  · cases h

/-! ## The parts of the state -/

/-- Nothing new is done with a sender where the parts of the state are what they were. -/
theorem Uses.of_eq (h : s'.Uses tx use) (hqueued : s'.queuedUses ⊆ s.queuedUses)
    (htrace : s'.socket.trace = s.socket.trace) (hchannels : s'.channels = s.channels)
    (hoperations : s'.operations = s.operations) : s.Uses tx use := by
  cases h with
  | queued hx => exact .queued (hqueued hx)
  | taken hx => exact .taken (htrace ▸ hx)
  | channel hw hx => exact .channel (hchannels ▸ hw) hx
  | result hop hphase => exact .result (hoperations ▸ hop) hphase

theorem Uses.of_setPhase
    (h : (s.setPhase i op phase).Uses tx use) :
    s.Uses tx use ∨ ((∃ deadline, phase = .waiting tx deadline) ∧ use = .result i op.request) := by
  cases h with
  | queued hx => exact .inl (.queued hx)
  | taken hx => exact .inl (.taken hx)
  | channel hw hx => exact .inl (.channel hw hx)
  | @result j op' tx deadline hop' hphase =>
      simp only [setPhase, List.getElem?_set] at hop'
      split at hop'
      · subst j
        split at hop'
        · cases hop'
          exact .inr ⟨⟨deadline, hphase⟩, rfl⟩
        · cases hop'
      · exact .inl (.result hop' hphase)

theorem Uses.of_setChannel (h : (s.setChannel c w').Uses tx use) :
    s.Uses tx use ∨ ∃ channelUse, use = .channel c channelUse ∧ (tx, channelUse) ∈ w'.uses := by
  cases h with
  | queued hx => exact .inl (.queued hx)
  | taken hx => exact .inl (.taken hx)
  | @channel c' w tx channelUse hw hx =>
      rw [lookup_setChannel] at hw
      split at hw
      · subst c'
        cases hw
        exact .inr ⟨channelUse, rfl, hx⟩
      · exact .inl (.channel hw hx)
  | result hop hphase => exact .inl (.result hop hphase)

theorem Uses.of_stateCommand {command : Socket.StateCommand} {n : Nat}
    (h : Uses { s with fresh := n, stateCommandRx := s.stateCommandRx ++ [command] } tx use) :
    s.Uses tx use ∨ command.use? = some (tx, use) := by
  cases h with
  | queued hx =>
      simp only [queuedUses, List.filterMap_append, List.filterMap_cons, List.filterMap_nil,
        List.mem_append] at hx
      rcases hx with (((hx | hx) | hx) | hx) | hx
      · exact .inl (.queued (by simp [queuedUses, hx]))
      · split at hx
        · cases hx
        · rename_i hcommand
          exact .inr (List.mem_singleton.mp hx ▸ hcommand)
      · exact .inl (.queued (by simp [queuedUses, hx]))
      · exact .inl (.queued (by simp [queuedUses, hx]))
      · exact .inl (.queued (by simp [queuedUses, hx]))
  | taken hx => exact .inl (.taken hx)
  | channel hw hx => exact .inl (.channel hw hx)
  | result hop hphase => exact .inl (.result hop hphase)

theorem Uses.of_channelSpawn {spawn : Socket.ChannelSpawn} {n : Nat}
    (h : Uses { s with fresh := n, channelSpawnRx := s.channelSpawnRx ++ [spawn] } tx use) :
    s.Uses tx use ∨ spawn.use = (tx, use) := by
  cases h with
  | queued hx =>
      simp only [queuedUses, List.map_append, List.map_cons, List.map_nil, List.mem_append,
        List.mem_singleton] at hx
      rcases hx with ((hx | hx | hx) | hx) | hx
      · exact .inl (.queued (by simp [queuedUses, hx]))
      · exact .inl (.queued (by simp [queuedUses, hx]))
      · exact .inr hx.symm
      · exact .inl (.queued (by simp [queuedUses, hx]))
      · exact .inl (.queued (by simp [queuedUses, hx]))
  | taken hx => exact .inl (.taken hx)
  | channel hw hx => exact .inl (.channel hw hx)
  | result hop hphase => exact .inl (.result hop hphase)

theorem Uses.of_channelStateCommand {command : ChannelStateCommand}
    (h : Uses { s with channelStateCommandRx := s.channelStateCommandRx ++ [command] } tx use) :
    s.Uses tx use ∨ command.use = (tx, use) := by
  cases h with
  | queued hx =>
      simp only [queuedUses, List.map_append, List.map_cons, List.map_nil, List.mem_append,
        List.mem_singleton] at hx
      rcases hx with ((hx | hx) | hx | hx) | hx
      · exact .inl (.queued (by simp [queuedUses, hx]))
      · exact .inl (.queued (by simp [queuedUses, hx]))
      · exact .inl (.queued (by simp [queuedUses, hx]))
      · exact .inr hx.symm
      · exact .inl (.queued (by simp [queuedUses, hx]))
  | taken hx => exact .inl (.taken hx)
  | channel hw hx => exact .inl (.channel hw hx)
  | result hop hphase => exact .inl (.result hop hphase)

theorem Uses.of_channelSendCommand {command : ChannelSendCommand}
    (h : Uses { s with channelSendCommandRx := s.channelSendCommandRx ++ [command] } tx use) :
    s.Uses tx use ∨ command.use = (tx, use) := by
  cases h with
  | queued hx =>
      simp only [queuedUses, List.map_append, List.map_cons, List.map_nil, List.mem_append,
        List.mem_singleton] at hx
      rcases hx with ((hx | hx) | hx) | hx | hx
      · exact .inl (.queued (by simp [queuedUses, hx]))
      · exact .inl (.queued (by simp [queuedUses, hx]))
      · exact .inl (.queued (by simp [queuedUses, hx]))
      · exact .inl (.queued (by simp [queuedUses, hx]))
      · exact .inr hx.symm
  | taken hx => exact .inl (.taken hx)
  | channel hw hx => exact .inl (.channel hw hx)
  | result hop hphase => exact .inl (.result hop hphase)

/-! ## One step -/

/-- What is done with a sender after a step was done before, or the step has made the sender for
it. -/
def UsedOrMade (s : System) (label : Label) (tx : TxId) (use : Use) : Prop :=
  s.Uses tx use ∨ ∃ purpose, s.made label = some (tx, purpose) ∧ use.Suits purpose

theorem isShutdown_of_use? {command : Socket.StateCommand} {request : Request}
    (h : command.use? = some (tx, use)) (hsuits : use.Suits (.request i request)) :
    request.isShutdown = false := by
  cases command with
  | connect => cases h; cases hsuits; rfl
  | disconnect => cases h; cases hsuits; rfl
  | shutdown => cases h

theorem isShutdown_of_channelUse {request : Request} {channelUse : Channel.Use}
    (hsuits : (Use.channel c channelUse).Suits (.request i request)) :
    request.isShutdown = false := by
  cases hsuits <;> rfl

theorem listenerEnded_of_socket (hchannel : op.request.channel? = none)
    (hrunning : s.socket.task.isRunning = true) :
    s.listenerEnded op.request.channel? = false := by
  simp [listenerEnded, hchannel, hrunning]

theorem listenerEnded_of_channel (hchannel : op.request.channel? = some c)
    (hw : s.channels.lookup c = some w) (hrunning : w.task.isRunning = true) :
    s.listenerEnded op.request.channel? = false := by
  simp [listenerEnded, hchannel, hw, hrunning]

/-- A call hands over the sender that it makes, and perhaps waits on it: all that is new is done with
that sender, for the call. -/
theorem UsedOrMade.of_handed {handed : System} (hop : s.operations[i]? = some op)
    (hphase : op.phase = .sending) (hended : s.listenerEnded op.request.channel? = false)
    (hshutdown : op.request.isShutdown = false)
    (huse : (handed.setPhase i op phase).Uses tx use)
    (hhanded : handed.Uses tx use →
      s.Uses tx use ∨ tx = s.fresh ∧ use.Suits (.request i op.request))
    (hwaits : ∀ tx deadline, phase = .waiting tx deadline → tx = s.fresh) :
    s.UsedOrMade (.advance i) tx use := by
  have made : tx = s.fresh → use.Suits (.request i op.request) →
      s.UsedOrMade (.advance i) tx use := by
    rintro rfl hsuits
    exact .inr ⟨_, made_of_sending hop hphase hended hshutdown, hsuits⟩
  rcases huse.of_setPhase with huse | ⟨⟨deadline, hwaiting⟩, rfl⟩
  · rcases hhanded huse with huse | ⟨hfresh, hsuits⟩
    · exact .inl huse
    · exact made hfresh hsuits
  · exact made (hwaits tx deadline hwaiting) .result

/-- A channel listener gets a command with the new sender. -/
theorem Uses.of_handedToChannel {channelUse : Channel.Use} {n : Nat}
    (hw : s.channels.lookup c = some w)
    (hcommand : ∀ tx use, (tx, use) ∈ w'.uses → (tx, use) ∈ w.uses ∨ (s.fresh, channelUse) = (tx, use))
    (hsuits : (Use.channel c channelUse).Suits purpose)
    (h : (setChannel { s with fresh := n } c w').Uses tx use) :
    s.Uses tx use ∨ tx = s.fresh ∧ use.Suits purpose := by
  rcases h.of_setChannel with h | ⟨channelUse', rfl, hmem⟩
  · exact .inl (h.of_eq (List.Subset.refl _) rfl rfl rfl)
  · rcases hcommand _ _ hmem with hmem | hmem
    · exact .inl (.channel hw hmem)
    · cases hmem
      exact .inr ⟨rfl, hsuits⟩

/-- A call that hands over no sender. -/
theorem UsedOrMade.of_setPhase {handed : System} (huse : (handed.setPhase i op phase).Uses tx use)
    (hhanded : handed.Uses tx use → s.Uses tx use)
    (hwaits : ∀ tx deadline, phase ≠ .waiting tx deadline) : s.UsedOrMade label tx use := by
  rcases huse.of_setPhase with huse | ⟨⟨deadline, hwaiting⟩, _⟩
  · exact .inl (hhanded huse)
  · exact absurd hwaiting (hwaits tx deadline)

theorem AdvanceStep.uses (h : AdvanceStep s i op s') (hop : s.operations[i]? = some op)
    (huse : s'.Uses tx use) : s.UsedOrMade (.advance i) tx use := by
  cases h with
  | @socketCommand command use' deadline hphase hsocket hrunning hcommand hsuits =>
      apply UsedOrMade.of_handed hop hphase (listenerEnded_of_socket hsocket hrunning)
        (isShutdown_of_use? hcommand hsuits) huse
      · intro huse
        rcases Uses.of_stateCommand huse with huse | huse
        · exact .inl huse
        · cases hcommand.symm.trans huse
          exact .inr ⟨rfl, hsuits⟩
      · rintro tx deadline ⟨⟩
        rfl
  | shutdown =>
      refine .of_setPhase huse (fun huse => ?_) (by simp)
      rcases Uses.of_stateCommand huse with huse | huse
      · exact huse
      · cases huse
  | channelSpawn hphase hrequest hrunning =>
      have hsocket : op.request.channel? = none := by simp [hrequest, Request.channel?]
      apply UsedOrMade.of_handed hop hphase (listenerEnded_of_socket hsocket hrunning)
        (by simp [hrequest, Request.isShutdown]) huse
      · intro huse
        rcases Uses.of_channelSpawn huse with huse | huse
        · exact .inl huse
        · cases huse
          exact .inr ⟨rfl, hrequest ▸ .spawn⟩
      · rintro tx deadline ⟨⟩
        rfl
  | @stateCommand c w command use' deadline hphase hchannel hw hrunning hcommand hsuits =>
      apply UsedOrMade.of_handed hop hphase (listenerEnded_of_channel hchannel hw hrunning)
        (isShutdown_of_channelUse hsuits) huse
      · refine Uses.of_handedToChannel hw (fun tx use hmem => ?_) hsuits
        exact (Channel.World.uses_stateCommand hmem).imp_right fun h => hcommand.symm.trans h.symm
      · rintro tx deadline ⟨⟩
        rfl
  | @cast c w eventPayload hphase hrequest hw hrunning =>
      have hchannel : op.request.channel? = some c := by simp [hrequest, Request.channel?]
      have hsuits : (Use.channel c (.cast eventPayload)).Suits (.request i op.request) :=
        hrequest ▸ .cast
      apply UsedOrMade.of_handed hop hphase (listenerEnded_of_channel hchannel hw hrunning)
        (isShutdown_of_channelUse hsuits) huse
      · refine Uses.of_handedToChannel hw (fun tx use hmem => ?_) hsuits
        exact (Channel.World.uses_sendCommand hmem).imp_right Eq.symm
      · intro tx deadline hwaiting
        cases hwaiting
  | @call c w eventPayload timeout deadline hphase hrequest hw hrunning =>
      have hchannel : op.request.channel? = some c := by simp [hrequest, Request.channel?]
      have hsuits : (Use.channel c (.call eventPayload)).Suits (.request i op.request) :=
        hrequest ▸ .call
      apply UsedOrMade.of_handed hop hphase (listenerEnded_of_channel hchannel hw hrunning)
        (isShutdown_of_channelUse hsuits) huse
      · refine Uses.of_handedToChannel hw (fun tx use hmem => ?_) hsuits
        exact (Channel.World.uses_sendCommand hmem).imp_right Eq.symm
      · rintro tx deadline ⟨⟩
        rfl
  | channel hw hphase =>
      refine .of_setPhase huse (fun huse => ?_) hphase.ne_waiting
      rcases huse.of_setChannel with huse | ⟨channelUse, rfl, hmem⟩
      · exact huse
      · exact .channel hw hmem
  | handle =>
      exact .of_setPhase huse (fun huse => huse.of_eq (List.Subset.refl _) rfl rfl rfl) (by simp)
  | caller hphase => exact .of_setPhase huse id hphase.ne_waiting

theorem Receive.uses (h : Receive s event input taken) :
    taken.queuedUses ⊆ s.queuedUses ∧ ∀ x, input.use? = some x → x ∈ s.queuedUses := by
  cases h with
  | stateCommand hrx =>
      constructor
      · intro x hx
        simp only [queuedUses, hrx, List.filterMap_cons, List.mem_append] at hx ⊢
        split <;> grind
      · intro x hx
        simp only [Socket.Input.use?] at hx
        simp [queuedUses, hrx, hx]
  | channelSpawn hrx | channelStateCommand hrx | channelSendCommand hrx =>
      constructor
      · intro x hx
        simp only [queuedUses, hrx, List.map_cons, List.mem_append, List.mem_cons] at hx ⊢
        grind
      · rintro x hx
        cases hx
        simp [queuedUses, hrx]
  | _ => exact ⟨List.Subset.refl _, by simp [Socket.Input.use?]⟩

theorem setSocket_queuedUses {v : Socket.World} : (s.setSocket v).queuedUses ⊆ s.queuedUses := by
  unfold setSocket
  split
  · exact List.Subset.refl _
  · exact List.nil_subset _

@[simp] theorem popPush_queuedUses (read : Option TxId) :
    (s.popPush read).queuedUses = s.queuedUses := by
  cases read <;> rfl

theorem resumed_uses {call : Channel.SocketCall} (hw : s.channels.lookup c = some w)
    (huse : (s.resumed c w call).Uses tx use) :
    s.Uses tx use ∨ ∃ channelUse, use = .channel c channelUse ∧
      (tx, channelUse) ∈ (Channel.Flow.next (call.sent s.fresh).1 (call.sent s.fresh).2).uses := by
  rcases huse.of_setChannel with huse | ⟨channelUse, rfl, hmem⟩
  · exact .inl (huse.of_eq (List.Subset.refl _) rfl rfl rfl)
  · have hmem : (tx, channelUse) ∈
        (w.proceed (.next (call.sent s.fresh).1 (call.sent s.fresh).2)).uses := hmem
    rcases Channel.proceed_uses hmem with hmem | hmem | hmem
    · exact .inl (.channel hw (Channel.World.mem_uses.mpr (.inl hmem)))
    · exact .inl (.channel hw (Channel.World.mem_uses.mpr (.inr (.inr hmem))))
    · exact .inr ⟨channelUse, rfl, hmem⟩

theorem made_of_forward {call : Channel.SocketCall} (hw : s.channels.lookup c = some w)
    (htask : w.task = .calling call) : s.made (.forward c) =
      match call.command w.listener s.fresh with
      | .inl command => some (s.fresh, .command command)
      | .inr _ => none := by
  simp only [made, hw, htask]

theorem select_uses {socket : Socket.World} (hreceive : Receive s event input taken)
    (hstep : (Socket.machine strategy).step s.socket (.select input) = some socket)
    (huse : (taken.setSocket socket).Uses tx use) : s.Uses tx use := by
  obtain ⟨e, htrace, hinput⟩ := select_trace hstep
  have hqueued := hreceive.uses
  cases huse with
  | queued hx => exact .queued (hqueued.1 (setSocket_queuedUses hx))
  | taken hx =>
      rw [setSocket_socket, htrace, Socket.takenUses, List.filterMap_append] at hx
      rcases List.mem_append.mp hx with hx | hx
      · exact .taken hx
      · obtain ⟨e', he', hbrought⟩ := List.mem_filterMap.mp hx
        obtain rfl := List.mem_singleton.mp he'
        exact .queued (hqueued.2 _ (hinput ▸ hbrought))
  | channel hw hx =>
      rw [setSocket_channels, hreceive.channels_eq] at hw
      exact .channel hw hx
  | result hop hphase =>
      have hoperations : taken.operations = s.operations := by cases hreceive <;> rfl
      rw [setSocket_operations, hoperations] at hop
      exact .result hop hphase

/-- The listener makes the sender of a state command, and awaits its answer itself. -/
theorem forwardState_uses {call : Channel.SocketCall} {command : ChannelStateCommand}
    (hrun : Run (machine strategy) ok init ls s) (hw : s.channels.lookup c = some w)
    (htask : w.task = .calling call) (hcommand : call.command w.listener s.fresh = .inl command)
    (huse : Uses { s.resumed c w call with
      channelStateCommandRx := s.channelStateCommandRx ++ [command] } tx use) :
    s.UsedOrMade (.forward c) tx use := by
  have hmade := made_of_forward hw htask
  rw [hcommand] at hmade
  obtain ⟨href, htx⟩ := command_inl hcommand
  rw [joinReference_of_run hrun hw] at href
  rcases huse.of_channelStateCommand with huse | huse
  · rcases resumed_uses hw huse with huse | ⟨channelUse, rfl, hmem⟩
    · exact .inl huse
    · rcases List.mem_cons.mp (Channel.uses_sent hmem) with hmem | hmem
      · cases hmem
        exact .inr ⟨_, hmade, .awaits href⟩
      · exact .inl (.channel hw (Channel.World.mem_uses.mpr (.inr (.inl (by rwa [htask])))))
  · rw [ChannelStateCommand.use, htx] at huse
    cases huse
    exact .inr ⟨_, hmade, .command⟩

/-- A call or a cast goes on with the sender that came with it. -/
theorem forwardSend_uses {call : Channel.SocketCall} {command : ChannelSendCommand}
    (hrun : Run (machine strategy) ok init ls s) (hw : s.channels.lookup c = some w)
    (htask : w.task = .calling call) (hcommand : call.command w.listener s.fresh = .inr command)
    (huse : Uses { s.resumed c w call with
      channelSendCommandRx := s.channelSendCommandRx ++ [command] } tx use) : s.Uses tx use := by
  rcases huse.of_channelSendCommand with huse | hsent
  · rcases resumed_uses hw huse with huse | ⟨channelUse, rfl, hmem⟩
    · exact huse
    · rw [Channel.uses_sent_of_send hcommand] at hmem
      cases hmem
  · have href := joinReference_of_run hrun hw
    have hcalling : (tx, use) ∈ call.uses.map (fun x => (x.1, Use.channel c x.2)) := by
      cases call <;> cases hcommand <;> cases hsent <;> simp [Channel.SocketCall.uses, href]
    obtain ⟨x, hx, heq⟩ := List.mem_map.mp hcalling
    cases heq
    exact .channel hw (Channel.World.mem_uses.mpr (.inr (.inl (by rwa [htask]))))

theorem failed_uses {flow : Channel.Flow} (hw : s.channels.lookup c = some w)
    (hflow : flow.uses ⊆ w.task.uses)
    (huse : Uses ({ s with joinHandle := false }.setChannel c (w.proceed flow)) tx use) :
    s.Uses tx use := by
  rcases Uses.of_setChannel (s := { s with joinHandle := false }) huse with
    huse | ⟨channelUse, rfl, hmem⟩
  · exact huse.of_eq (List.Subset.refl _) rfl rfl rfl
  · refine .channel hw ?_
    rcases Channel.proceed_uses hmem with hmem | hmem | hmem
    · exact Channel.World.mem_uses.mpr (.inl hmem)
    · exact Channel.World.mem_uses.mpr (.inr (.inr hmem))
    · exact Channel.World.mem_uses.mpr (.inr (.inl (hflow hmem)))

theorem SystemStep.uses (hrun : Run (machine strategy) ok init ls s)
    (h : SystemStep strategy s label s') (hlabel : label.isUser = false)
    (huse : s'.Uses tx use) : s.UsedOrMade label tx use := by
  cases h with
  | user h => cases h.symm.trans hlabel
  | elapse | delivered | publish | pushed | pushedClosed =>
      exact .inl (huse.of_eq (List.Subset.refl _) rfl rfl rfl)
  | select hreceive hstep => exact .inl (select_uses hreceive hstep huse)
  | @spawned spawn c state sent heffect =>
      rcases Uses.of_setChannel (s := { s with delivered := s.delivered + 1 }) huse with
        huse | ⟨channelUse, rfl, hmem⟩
      · exact .inl (huse.of_eq (List.Subset.refl _) rfl rfl rfl)
      · obtain ⟨before, rfl⟩ := spawned_state hrun heffect
        rw [Channel.spawn_uses] at hmem
        cases hmem
  | @poll c w w' read hw hpoll =>
      rcases Uses.of_setChannel (s := s.popPush read) huse with huse | ⟨channelUse, rfl, hmem⟩
      · exact .inl (huse.of_eq (by rw [popPush_queuedUses]; exact List.Subset.refl _)
          (by simp) (by simp) (by simp))
      · exact .inl (.channel hw (hpoll.uses hmem))
  | forwardState hw htask _ hcommand => exact forwardState_uses hrun hw htask hcommand huse
  | forwardSend hw htask _ hcommand => exact .inl (forwardSend_uses hrun hw htask hcommand huse)
  | @fail c w call flow hw htask hrunning hflow =>
      refine .inl (failed_uses hw ?_ huse)
      rw [htask]
      rcases hflow with ⟨error, _, rfl⟩ | ⟨reason, _, rfl⟩
      · exact Channel.uses_failed
      · exact List.nil_subset _
  | @publishChannel c w state hw htask =>
      rcases Uses.of_setChannel (s := s) huse with huse | ⟨channelUse, rfl, hmem⟩
      · exact .inl huse
      · refine .inl (.channel hw ?_)
        rw [Channel.World.mem_uses] at hmem ⊢
        rw [htask]
        exact hmem

theorem usedOrMade_of_step (hrun : Run (machine strategy) ok init ls s)
    (h : (machine strategy).step s label = some s') (huse : s'.Uses tx use) :
    s.UsedOrMade label tx use := by
  cases label with
  | advance i =>
      obtain ⟨op, hop, h⟩ := advance_cases h
      exact h.uses hop huse
  | begin request =>
      have hcaller : s' = { s with
          operations := s.operations ++ [⟨request, s.socket.now, .sending⟩] } := by
        simp only [machine, step, beginStep] at h
        repeat' split at h
        all_goals cases h <;> rfl
      subst hcaller
      cases huse with
      | queued hx => exact .inl (.queued hx)
      | taken hx => exact .inl (.taken hx)
      | channel hw hx => exact .inl (.channel hw hx)
      | result hop hphase =>
          rw [List.getElem?_append] at hop
          split at hop
          · exact .inl (.result hop hphase)
          · obtain rfl := List.mem_singleton.mp (List.mem_of_getElem? hop)
            cases hphase
  | drop c =>
      simp only [machine, step, dropStep] at h
      split at h
      · rename_i w hw
        split at h <;> cases h
        rcases Uses.of_setChannel (s := s) huse with huse | ⟨channelUse, rfl, hmem⟩
        · exact .inl huse
        · exact .inl (.channel hw hmem)
      · cases h
  | expire i =>
      simp only [machine, step, expireStep] at h
      repeat' split at h
      all_goals cases h
      rcases huse.of_setPhase with huse | ⟨⟨deadline, hwaiting⟩, rfl⟩
      · exact .inl huse
      · cases hwaiting
  | _ => exact (step_cases h).uses hrun rfl huse

/-! ## Along a run -/

/-- The sender that a step makes is a new one. -/
theorem fresh_of_made (h : (machine strategy).step s label = some s')
    (hmade : s.made label = some (tx, purpose)) : tx = s.fresh ∧ s'.fresh = s.fresh + 1 := by
  cases label with
  | advance i =>
      obtain ⟨op, hop, h⟩ := advance_cases h
      constructor
      · simp only [made, hop] at hmade
        repeat' split at hmade
        all_goals cases hmade
        rfl
      · cases h with
        | channel _ _ hnone | handle hnone | caller _ hnone => cases hnone.symm.trans hmade
        | socketCommand | shutdown | channelSpawn | stateCommand | cast | call => rfl
  | forward c =>
      cases step_cases h with
      | user h => cases h
      | forwardState hw htask _ hcommand | forwardSend hw htask _ hcommand =>
          rw [made_of_forward hw htask, hcommand] at hmade
          cases hmade <;> exact ⟨rfl, rfl⟩
  | _ => cases hmade

/-- The senders that were made, each of them once. -/
structure Made (past : List (System × Label)) (s : System) : Prop where
  old {tx : TxId} {purpose : Purpose} : (tx, purpose) ∈ makings past → tx < s.fresh
  once : ((makings past).map Prod.fst).Nodup

theorem made_of_run (h : Run (machine strategy) ok init ls s) :
    Made ((machine strategy).steps init ls) s := by
  refine h.history (I := Made) ⟨by simp [makings], by simp [makings]⟩ ?_
  intro ls past s label s' _ ih _ hs
  have hmono := (step_cases hs).fresh_mono
  cases hmade : s.made label with
  | none =>
      have hkept : makings (past ++ [(s, label)]) = makings past := by simp [makings_snoc, hmade]
      exact ⟨fun h => Nat.lt_of_lt_of_le (ih.old (hkept ▸ h)) hmono, hkept ▸ ih.once⟩
  | some x =>
      obtain ⟨tx, purpose⟩ := x
      obtain ⟨rfl, hfresh⟩ := fresh_of_made hs hmade
      have hnew : makings (past ++ [(s, label)]) = makings past ++ [(s.fresh, purpose)] := by
        simp [makings_snoc, hmade]
      constructor
      · intro tx purpose' h
        rw [hnew] at h
        rcases List.mem_append.mp h with h | h
        · exact Nat.lt_of_lt_of_le (ih.old h) hmono
        · cases List.mem_singleton.mp h
          exact hfresh ▸ Nat.lt_succ_self _
      · rw [hnew, List.map_append]
        refine List.nodup_append.mpr ⟨ih.once, List.nodup_singleton _, ?_⟩
        intro tx htx tx' htx' heq
        obtain ⟨⟨_, purpose'⟩, hmem, rfl⟩ := List.mem_map.mp htx
        obtain rfl := List.mem_singleton.mp htx'
        exact absurd heq (Nat.ne_of_lt (ih.old hmem))

/-- A sender is made for one thing. -/
theorem Made.unique {purpose' : Purpose} (h : Made past s) (hmem : (tx, purpose) ∈ makings past)
    (hmem' : (tx, purpose') ∈ makings past) : purpose = purpose' :=
  (Prod.mk.inj (List.inj_on_of_nodup_map h.once hmem hmem' rfl)).2

/-- Whatever is done with a sender, it was made for. -/
theorem purpose_of_run (h : Run (machine strategy) ok init ls s) (huse : s.Uses tx use) :
    ∃ purpose, (tx, purpose) ∈ makings ((machine strategy).steps init ls) ∧ use.Suits purpose := by
  refine h.history (I := fun past s => ∀ tx use, s.Uses tx use →
    ∃ purpose, (tx, purpose) ∈ makings past ∧ use.Suits purpose) ?_ ?_ tx use huse
  · intro tx use huse
    cases huse with
    | queued hx | taken hx => cases hx
    | channel hw =>
        rw [lookup_init] at hw
        cases hw
    | result hop => cases hop
  intro ls past s label s' hrun ih _ hs tx use huse
  rw [makings_snoc]
  rcases usedOrMade_of_step hrun hs huse with huse | ⟨purpose, hmade, hsuits⟩
  · obtain ⟨purpose, hmem, hsuits⟩ := ih tx use huse
    exact ⟨purpose, List.mem_append_left _ hmem, hsuits⟩
  · exact ⟨purpose, List.mem_append_right _ (by simp [hmade]), hsuits⟩

/-- Two things that are done with a sender are done for the same purpose. -/
theorem suits_of_run {use' : Use} (h : Run (machine strategy) ok init ls s)
    (huse : s.Uses tx use) (huse' : s.Uses tx use') :
    ∃ purpose, use.Suits purpose ∧ use'.Suits purpose := by
  obtain ⟨purpose, hmem, hsuits⟩ := purpose_of_run h huse
  obtain ⟨purpose', hmem', hsuits'⟩ := purpose_of_run h huse'
  cases (made_of_run h).unique hmem hmem'
  exact ⟨purpose, hsuits, hsuits'⟩

end System

end PhoenixChannels
