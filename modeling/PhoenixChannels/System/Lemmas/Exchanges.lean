import PhoenixChannels.Channel.Lemmas.Replies
import PhoenixChannels.System.Lemmas.Answers

/-!
# Exchanges of channels with the server

The commands of a channel listener carry its own topic, join reference and payload. What its callers
are answered with comes from replies to the frames that were written for these commands.
-/

namespace PhoenixChannels

open Socket (Exchange)

/-- The command of a channel that an input brings. -/
def Socket.Input.command? : Socket.Input → Option (ChannelStateCommand ⊕ ChannelSendCommand)
  | channelStateCommand command _ _ => some (.inl command)
  | channelSendCommand command _ _ => some (.inr command)
  | _ => none

namespace System

open Machine

/-- The commands of channels that the socket listener took, and those that wait in its queues. -/
def channelCommands (s : System) : List (ChannelStateCommand ⊕ ChannelSendCommand) :=
  s.socket.trace.filterMap (fun e => e.input.command?)
    ++ s.channelStateCommandRx.map .inl ++ s.channelSendCommandRx.map .inr

/-- A command of the listener of a channel. -/
def SentBy (s : System) (command : ChannelStateCommand ⊕ ChannelSendCommand) : Prop :=
  ∃ (c : JoinReference) (w : Channel.World) (call : Channel.SocketCall) (fresh : TxId),
    s.channels.lookup c = some w ∧ command = call.command w.listener fresh

variable {strategy : Option (Nat → Duration)} {s s' taken : System} {label : Label}
variable {ok : System → Label → Prop} {ls : List Label} {c : JoinReference} {tx : TxId}
variable {w w' : Channel.World} {event : SocketEvent} {input : Socket.Input}
variable {past : List (System × Label)} {i : Nat}

/-! ## Commands -/

theorem Receive.channelCommands {command : ChannelStateCommand ⊕ ChannelSendCommand}
    (h : Receive s event input taken) :
    (input.command? = some command → command ∈ s.channelCommands) ∧
      (command ∈ taken.channelCommands → command ∈ s.channelCommands) := by
  have htrace : taken.socket = s.socket := h.socket_eq
  simp only [System.channelCommands, htrace, List.mem_append, List.mem_map]
  cases h with
  | channelStateCommand hrx | channelSendCommand hrx =>
      simp only [Socket.Input.command?, Option.some.injEq, hrx, List.mem_cons]
      grind
  | _ => simp [Socket.Input.command?]

theorem SystemStep.channelCommands {command : ChannelStateCommand ⊕ ChannelSendCommand}
    (h : SystemStep strategy s label s') (hmem : command ∈ s'.channelCommands) :
    command ∈ s.channelCommands ∨ s.SentBy command := by
  cases h with
  | user _ h => cases h <;> exact .inl hmem
  | @select event input taken socket hreceive hstep =>
      obtain ⟨e, htrace, hinput⟩ := select_trace hstep
      have htaken : _ ∧ (command ∈ taken.channelCommands → command ∈ s.channelCommands) :=
        hreceive.channelCommands
      left
      have queued : command ∈ taken.channelStateCommandRx.map Sum.inl ∨
          command ∈ taken.channelSendCommandRx.map Sum.inr → command ∈ s.channelCommands :=
        fun h => htaken.2 (by simp only [System.channelCommands, List.mem_append]; tauto)
      have hqueues : command ∈ (taken.setSocket socket).channelStateCommandRx.map Sum.inl ∨
          command ∈ (taken.setSocket socket).channelSendCommandRx.map Sum.inr →
          command ∈ s.channelCommands := by
        intro h
        refine queued ?_
        unfold setSocket at h
        split at h
        · exact h
        · simp at h
      simp only [System.channelCommands, setSocket_socket, htrace, List.filterMap_append,
        List.mem_append] at hmem
      rcases hmem with ((hold | hnew) | hqueued) | hqueued
      · exact List.mem_append_left _ (List.mem_append_left _ hold)
      · obtain ⟨e', he', hcommand⟩ := List.mem_filterMap.mp hnew
        obtain rfl := List.mem_singleton.mp he'
        exact htaken.1 (hinput ▸ hcommand)
      · exact hqueues (.inl hqueued)
      · exact hqueues (.inr hqueued)
  | forwardState hw htask _ hcommand =>
      simp only [System.channelCommands, resumed, setChannel, List.map_append, List.map_cons,
        List.map_nil, List.mem_append, List.mem_singleton] at hmem
      rcases hmem with (hmem | hmem | rfl) | hmem
      · exact .inl (List.mem_append_left _ (List.mem_append_left _ hmem))
      · exact .inl (List.mem_append_left _ (List.mem_append_right _ hmem))
      · exact .inr ⟨_, _, _, _, hw, hcommand.symm⟩
      · exact .inl (List.mem_append_right _ hmem)
  | forwardSend hw htask _ hcommand =>
      simp only [System.channelCommands, resumed, setChannel, List.map_append, List.map_cons,
        List.map_nil, List.mem_append, List.mem_singleton] at hmem
      rcases hmem with (hmem | hmem) | hmem | rfl
      · exact .inl (List.mem_append_left _ (List.mem_append_left _ hmem))
      · exact .inl (List.mem_append_left _ (List.mem_append_right _ hmem))
      · exact .inl (List.mem_append_right _ hmem)
      · exact .inr ⟨_, _, _, _, hw, hcommand.symm⟩
  | @poll c w w' read => cases read <;> exact .inl hmem
  | _ => exact .inl hmem

theorem SentBy.mono {command : ChannelStateCommand ⊕ ChannelSendCommand}
    (hrun : Run (machine strategy) ok init ls s) (h : SystemStep strategy s label s')
    (hsent : s.SentBy command) : s'.SentBy command := by
  obtain ⟨c, w, call, fresh, hw, hcommand⟩ := hsent
  obtain ⟨w', hw', hnext⟩ := h.channel_next hrun hw
  refine ⟨c, w', call, fresh, hw', ?_⟩
  rcases hnext with rfl | hstep
  · exact hcommand
  · rw [hstep.listener]
    exact hcommand

theorem sentBy_of_run {command : ChannelStateCommand ⊕ ChannelSendCommand}
    (h : Run (machine strategy) ok init ls s) (hmem : command ∈ s.channelCommands) :
    s.SentBy command := by
  induction h with
  | nil => cases hmem
  | snoc hrun _ hs ih =>
      have hstep := step_cases hs
      rcases hstep.channelCommands hmem with hold | hnew
      · exact (ih hold).mono hrun hstep
      · exact hnew.mono hrun hstep

theorem mem_channelCommands {command : ChannelStateCommand ⊕ ChannelSendCommand} {e : Socket.Entry}
    (he : e ∈ s.socket.trace) (hcommand : e.input.command? = some command) :
    command ∈ s.channelCommands :=
  List.mem_append_left _ (List.mem_append_left _ (List.mem_filterMap.mpr ⟨e, he, hcommand⟩))

/-- A call that was sent is of the channel whose join reference and topic it has. -/
theorem call_of_run {k : Call} (h : Run (machine strategy) ok init ls s)
    (hmem : .inr (.call k) ∈ s.channelCommands) :
    ∃ w, s.channels.lookup k.joinReference = some w ∧ k.topic = w.listener.topic := by
  obtain ⟨c, w, call, fresh, hw, hcommand⟩ := sentBy_of_run h hmem
  have href := joinReference_of_run h hw
  cases call <;> cases hcommand
  exact ⟨w, href ▸ hw, rfl⟩

/-- A join that was sent has the topic and the payload of its channel. -/
theorem join_of_run {join : Join} (h : Run (machine strategy) ok init ls s)
    (hmem : .inl (.join join) ∈ s.channelCommands) :
    ∃ w, s.channels.lookup join.joinReference = some w ∧ join.topic = w.listener.topic ∧
      join.payload = w.listener.payload := by
  obtain ⟨c, w, call, fresh, hw, hcommand⟩ := sentBy_of_run h hmem
  have href := joinReference_of_run h hw
  cases call <;> cases hcommand
  exact ⟨w, href ▸ hw, rfl, rfl⟩

/-! ## Replies to joins -/

/-- The socket has answered a join of the channel with this reply. -/
def JoinReplied (past : List (System × Label)) (s : System) (c : JoinReference)
    (reply : ReplyStatus × Payload) : Prop :=
  ∃ tx command result, (tx, .command command) ∈ makings past ∧ command.joinReference = c ∧
    .joinedTx tx result ∈ s.visible ∧ Channel.replyOf? result = some reply

theorem JoinReplied.mono {reply : ReplyStatus × Payload}
    (hrun : Run (machine strategy) ok init ls s) (h : SystemStep strategy s label s')
    (hreplied : JoinReplied past s c reply) : JoinReplied (past ++ [(s, label)]) s' c reply := by
  obtain ⟨tx, command, result, hmade, href, hmem, hreply⟩ := hreplied
  exact ⟨tx, command, result, makings_snoc ▸ List.mem_append_left _ hmade, href,
    (visible_grows hrun h).subset hmem, hreply⟩

theorem visible_of_joined {result : Except Socket.JoinError JoinedChannelReceivers}
    (h : s.joined tx = .sent result) : .joinedTx tx result ∈ s.visible := by
  unfold joined oneshot at h
  split at h
  · rename_i result' hsome
    cases h
    obtain ⟨effect, hmem, heffect⟩ := List.exists_of_findSome?_eq_some hsome
    cases effect <;> simp only [reduceCtorEq] at heffect
    split at heffect <;> cases heffect
    subst tx
    exact hmem
  · split at h <;> cases h

theorem visible_of_left {result : Except Channel.LeaveError Unit}
    (h : s.left tx = .sent result) : .leftTx tx result ∈ s.visible := by
  unfold left oneshot at h
  split at h
  · rename_i result' hsome
    cases h
    obtain ⟨effect, hmem, heffect⟩ := List.exists_of_findSome?_eq_some hsome
    cases effect <;> simp only [reduceCtorEq] at heffect
    split at heffect <;> cases heffect
    subst tx
    exact hmem
  · split at h <;> cases h

theorem awaits_of_joining {joining : Channel.Joining} (h : w.task.joining? = some joining) :
    (joining.socketJoinedRx, Channel.Use.awaits) ∈ w.uses := by
  refine Channel.World.mem_uses.mpr (.inr (.inl ?_))
  generalize w.task = task at h
  unfold Channel.Task.joining? at h
  split at h <;> cases h <;> simp [Channel.Task.uses, Channel.State.uses, Channel.Joining.uses,
    Channel.SocketCall.uses]

theorem ChannelStep.replies {reply : ReplyStatus × Payload} (h : ChannelStep s s' c w label w')
    (hmem : reply ∈ w'.replies) : reply ∈ w.replies ∨ ∃ joining result,
      w.task.joining? = some joining ∧ s.joined joining.socketJoinedRx = .sent result ∧
        Channel.replyOf? result = some reply := by
  cases h with
  | user | stateCommand | sendCommand => exact .inl hmem
  | poll hpoll => exact hpoll.replies hmem
  | @forward call htask =>
      left
      rcases @Channel.proceed_replies w (.next _ _) _ hmem with hflow | hold
      · have hcalling := Channel.replies_sent hflow
        exact List.mem_append_left _ (htask ▸ hcalling)
      · exact List.mem_append_right _ hold
  | @fail call flow htask hrunning hflow =>
      left
      rcases Channel.proceed_replies hmem with hnew | hold
      · have hcalling : reply ∈ (Channel.Task.calling call).replies := by
          rcases hflow with ⟨error, _, rfl⟩ | ⟨reason, _, rfl⟩
          · exact Channel.replies_failed hnew
          · cases hnew
        exact List.mem_append_left _ (htask ▸ hcalling)
      · exact List.mem_append_right _ hold
  | publish htask =>
      left
      simpa [Channel.World.replies, htask, Channel.Task.select] using hmem

/-- Every payload that a channel listener hands out came with a reply to a join of its own. -/
theorem joinReplied_of_run {reply : ReplyStatus × Payload} (h : Run (machine strategy) ok init ls s)
    (hw : s.channels.lookup c = some w) (hmem : reply ∈ w.replies) :
    JoinReplied ((machine strategy).steps init ls) s c reply := by
  induction h generalizing w with
  | nil =>
      rw [lookup_init] at hw
      cases hw
  | snoc hrun _ hs ih =>
      rw [hrun.steps_snoc]
      have hstep := step_cases hs
      cases hstep.channel_cases hw with
      | kept hw => exact (ih hw hmem).mono hrun hstep
      | stepped hw₀ hchannel =>
          rcases hchannel.replies hmem with hold | ⟨joining, result, hjoining, hresult, hreply⟩
          · exact (ih hw₀ hold).mono hrun hstep
          · have huse := Uses.channel hw₀ (awaits_of_joining hjoining)
            obtain ⟨purpose, hmade, hsuits⟩ := purpose_of_run hrun huse
            cases hsuits with
            | awaits href =>
                exact JoinReplied.mono hrun hstep
                  ⟨_, _, result, hmade, href, visible_of_joined hresult, hreply⟩
      | spawned heffect hspawn =>
          obtain ⟨before, rfl⟩ := spawned_state hrun heffect
          subst hspawn
          cases before <;> cases hmem

/-! ## Errors -/

/-- No channel listener answers with an error that no handler gives. -/
theorem answersKnown_of_run (h : Run (machine strategy) ok init ls s)
    (hw : s.channels.lookup c = some w) : ∀ effect ∈ w.effects, effect.known = true := by
  refine h.invariant_of_run (I := fun s => ∀ c w, s.channels.lookup c = some w →
    ∀ effect ∈ w.effects, effect.known = true) ?_ ?_ c w hw
  · intro c w hw
    rw [lookup_init] at hw
    cases hw
  intro ls s label s' hrun ih _ hs c w' hw' effect hmem
  cases (step_cases hs).channel_cases hw' with
  | kept hw => exact ih c w' hw effect hmem
  | spawned heffect hspawn =>
      subst hspawn
      cases hmem
  | stepped hw hchannel =>
      have ih := ih c _ hw effect
      cases hchannel with
      | user | stateCommand | sendCommand | publish => exact ih hmem
      | poll hpoll =>
          rcases hpoll.known hmem with hold | hknown | ⟨rx, tx, result, hresult, rfl⟩
          · exact ih hold
          · exact hknown
          · -- what the socket says about a leave
            obtain ⟨ks, hks⟩ := socket_run hrun
            have hknown := Socket.known_of_run hks _
              (List.mem_of_mem_take (visible_of_left (s := s) hresult))
            cases result with
            | ok => rfl
            | error error => cases error <;> first | rfl | cases hknown
      | forward =>
          rcases List.mem_append.mp hmem with hold | hnew
          · exact ih hold
          · exact Channel.known_sent effect hnew
      | fail _ _ hflow =>
          rw [Channel.proceed_effects_eq] at hmem
          rcases List.mem_append.mp hmem with hold | hnew
          · exact ih hold
          · rcases hflow with ⟨error, _, rfl⟩ | ⟨reason, _, rfl⟩
            · exact Channel.known_failed effect hnew
            · cases hnew

end System

end PhoenixChannels
