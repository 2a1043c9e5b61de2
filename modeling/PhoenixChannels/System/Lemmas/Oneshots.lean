import PhoenixChannels.Channel.Lemmas.Senders
import PhoenixChannels.Socket.Lemmas.Senders
import PhoenixChannels.System.Lemmas.Runs

/-!
# Oneshot channels

A sender moves from queue to listener to queue and is never copied back: nobody holds a sender after
a step who did not hold it before, unless it was made in that step. So a oneshot channel whose
sender was dropped stays closed.
-/

namespace PhoenixChannels

theorem Socket.Effect.tx?_of_result? {effect : Socket.Effect} {tx : TxId} {result : ApiResult}
    (h : effect.result? tx = some result) : effect.tx? = some tx := by
  cases effect <;> simp_all [Socket.Effect.result?, Socket.Effect.tx?]

theorem Channel.Effect.tx?_of_result? {effect : Channel.Effect} {tx : TxId} {result : ApiResult}
    (h : effect.result? tx = some result) : effect.tx? = some tx := by
  cases effect <;> simp_all [Channel.Effect.result?, Channel.Effect.tx?]

theorem Channel.SendCommand.id_of_tx? {command : Channel.SendCommand} {tx : TxId}
    (h : command.tx? = some tx) : command.id = tx := by
  cases command with
  | cast => cases h
  | call => exact Option.some.inj h

/-- A command takes no sender along but those of the handler that sends it, and a fresh one. -/
theorem Channel.SocketCall.command_tx {call : Channel.SocketCall} {listener : Channel.Listener}
    {fresh : TxId} {command : ChannelStateCommand}
    (h : call.command listener fresh = .inl command) : command.tx = fresh := by
  cases call <;> cases h <;> rfl

theorem Channel.SocketCall.command_tx? {call : Channel.SocketCall} {listener : Channel.Listener}
    {fresh tx : TxId} {command : ChannelSendCommand}
    (h : call.command listener fresh = .inr command) (htx : command.tx? = some tx) :
    tx ∈ call.heldTxs := by
  cases call <;> cases h
  · cases htx
  · cases htx
    exact List.mem_singleton_self _

namespace System

open Machine

variable {strategy : Option (Nat → Duration)} {s s' taken : System} {label : Label} {tx : TxId}
variable {ok : System → Label → Prop} {ls : List Label} {c : JoinReference}
variable {w w' : Channel.World} {event : SocketEvent} {input : Socket.Input}

/-! ## Held senders -/

/-- The senders of the commands in the queues of the socket. -/
def queuedTxs (s : System) : List TxId :=
  s.stateCommandRx.filterMap Socket.StateCommand.tx?
    ++ s.channelSpawnRx.map Socket.ChannelSpawn.sender
    ++ s.channelStateCommandRx.map ChannelStateCommand.tx
    ++ s.channelSendCommandRx.filterMap ChannelSendCommand.tx?

theorem mem_heldTxs : tx ∈ s.heldTxs ↔ tx ∈ s.queuedTxs ∨ tx ∈ s.socket.heldTxs ∨
    (∃ effect ∈ s.undelivered, effect.tx? = some tx) ∨
      ∃ c w, s.channels.lookup c = some w ∧ tx ∈ w.heldTxs := by
  have heq : s.heldTxs = s.queuedTxs ++ s.socket.heldTxs
      ++ s.undelivered.filterMap Socket.Effect.tx?
      ++ (Dict.values s.channels).flatMap Channel.World.heldTxs := rfl
  rw [heq, List.mem_append, List.mem_append, List.mem_append, List.mem_filterMap, List.mem_flatMap,
    or_assoc, or_assoc]
  refine or_congr Iff.rfl (or_congr Iff.rfl (or_congr Iff.rfl ?_))
  constructor
  · rintro ⟨w, hw, htx⟩
    obtain ⟨c, hc⟩ := Dict.mem_values.mp hw
    exact ⟨c, w, hc, htx⟩
  · rintro ⟨c, w, hc, htx⟩
    exact ⟨w, Dict.mem_values.mpr ⟨c, hc⟩, htx⟩

/-! ## The queues -/

theorem mem_filterMap_cons {α : Type} {f : α → Option TxId} {a : α} {as : List α} :
    tx ∈ (a :: as).filterMap f ↔ f a = some tx ∨ tx ∈ as.filterMap f := by
  simp only [List.mem_filterMap, List.mem_cons, exists_eq_or_imp]

theorem mem_filterMap_concat {α : Type} {f : α → Option TxId} {a : α} {as : List α} :
    tx ∈ (as ++ [a]).filterMap f ↔ tx ∈ as.filterMap f ∨ f a = some tx := by
  rw [List.filterMap_append, List.mem_append, mem_filterMap_cons]
  simp

theorem Receive.queuedTxs (h : Receive s event input taken) :
    taken.queuedTxs ⊆ s.queuedTxs ∧ ∀ tx, input.tx? = some tx → tx ∈ s.queuedTxs := by
  cases h with
  | channelSpawn hrx | stateCommand hrx | channelStateCommand hrx | channelSendCommand hrx =>
      constructor
      · intro tx
        simp only [System.queuedTxs, hrx, List.mem_append, mem_filterMap_cons, List.map_cons,
          List.mem_cons]
        grind
      · intro tx htx
        simp only [Socket.Input.tx?, Option.some.injEq] at htx
        simp [System.queuedTxs, hrx, htx]
  | _ => exact ⟨List.Subset.refl _, by simp [Socket.Input.tx?]⟩

theorem setSocket_queuedTxs {v : Socket.World} : (s.setSocket v).queuedTxs ⊆ s.queuedTxs := by
  unfold setSocket
  split
  · exact List.Subset.refl _
  · exact List.nil_subset _

@[simp] theorem popPush_queuedTxs (read : Option TxId) :
    (s.popPush read).queuedTxs = s.queuedTxs := by
  cases read <;> rfl

theorem SystemStep.queuedTxs (h : SystemStep strategy s label s') (htx : tx ∈ s'.queuedTxs) :
    tx ∈ s.heldTxs ∨ tx = s.fresh := by
  have queued : tx ∈ s.queuedTxs → tx ∈ s.heldTxs ∨ tx = s.fresh :=
    fun h => .inl (mem_heldTxs.mpr (.inl h))
  have held : ∀ {c : JoinReference} {w : Channel.World} {call : Channel.SocketCall},
      s.channels.lookup c = some w → w.task = .calling call → tx ∈ call.heldTxs →
      tx ∈ s.heldTxs ∨ tx = s.fresh := by
    intro c w call hw htask htx
    refine .inl (mem_heldTxs.mpr (.inr (.inr (.inr ⟨c, w, hw, ?_⟩))))
    exact Channel.mem_heldTxs.mpr (.inr (by rw [htask]; exact htx))
  cases h with
  | user _ h =>
      cases h with
      | caller | channel | stateCommand | sendCommand => exact queued htx
      | socketCommand _ hcommand =>
          have hfresh := hcommand tx
          simp only [System.queuedTxs, List.mem_append, mem_filterMap_concat] at htx queued
          grind
      | channelSpawn _ hspawn =>
          simp only [System.queuedTxs, List.map_append, List.mem_append, List.map_cons,
            List.map_nil, List.mem_singleton, hspawn] at htx queued
          grind
  | select hreceive => exact queued (hreceive.queuedTxs.1 (setSocket_queuedTxs htx))
  | poll => exact queued (popPush_queuedTxs (s := s) _ ▸ htx)
  | forwardState hw htask hrunning hcommand =>
      have hfresh := Channel.SocketCall.command_tx hcommand
      simp only [System.queuedTxs, resumed, setChannel, List.map_append, List.mem_append,
        List.map_cons, List.map_nil, List.mem_singleton, hfresh] at htx queued
      grind
  | @forwardSend c w call command hw htask hrunning hcommand =>
      have hheld : command.tx? = some tx → tx ∈ s.heldTxs ∨ tx = s.fresh :=
        fun htx => held hw htask (Channel.SocketCall.command_tx? hcommand htx)
      simp only [System.queuedTxs, resumed, setChannel, List.mem_append, mem_filterMap_concat]
        at htx queued
      grind
  | _ => exact queued htx

/-! ## The listeners -/

theorem SystemStep.socket_heldTxs (h : SystemStep strategy s label s') :
    s'.socket.heldTxs ⊆ s.heldTxs ∧ ∃ effects, s'.socket.effects = s.socket.effects ++ effects ∧
      ∀ effect ∈ effects, ∀ tx, effect.tx? = some tx → tx ∈ s.heldTxs := by
  have own : ∀ {tx}, tx ∈ s.socket.heldTxs → tx ∈ s.heldTxs := fun h => mem_heldTxs.mpr (.inr (.inl h))
  cases h.socket_cases with
  | kept heq => exact ⟨fun tx htx => own (heq ▸ htx), [], by simp [heq], by simp⟩
  | stepped hl hstep =>
      have hstep := Socket.step_cases hstep
      obtain ⟨effects, heq, heffects⟩ := hstep.answers
      refine ⟨fun tx htx => ?_, effects, heq, fun effect hmem tx htx => ?_⟩
      · rcases hstep.heldTxs htx with htx | ⟨input, rfl, _⟩
        · exact own htx
        · exact absurd rfl (hl input)
      · rcases heffects effect hmem tx htx with htx | ⟨input, rfl, _⟩
        · exact own htx
        · exact absurd rfl (hl input)
  | selected hlabel hreceive hstep =>
      have hstep := Socket.step_cases hstep
      obtain ⟨effects, heq, heffects⟩ := hstep.answers
      refine ⟨fun tx htx => ?_, effects, heq, fun effect hmem tx htx => ?_⟩
      · rcases hstep.heldTxs htx with htx | ⟨input, hl, htx⟩
        · exact own htx
        · cases hl
          exact mem_heldTxs.mpr (.inl (hreceive.queuedTxs.2 tx htx))
      · rcases heffects effect hmem tx htx with htx | ⟨input, hl, htx⟩
        · exact own htx
        · cases hl
          exact mem_heldTxs.mpr (.inl (hreceive.queuedTxs.2 tx htx))

theorem SystemStep.undelivered (h : SystemStep strategy s label s') {effect : Socket.Effect}
    (hmem : effect ∈ s'.undelivered) (htx : effect.tx? = some tx) : tx ∈ s.heldTxs := by
  obtain ⟨_, effects, heq, heffects⟩ := h.socket_heldTxs
  have hdrop : effect ∈ (s.socket.effects ++ effects).drop s.delivered := by
    rw [← heq]
    exact (List.drop_sublist_drop_left _ h.delivered_mono).subset hmem
  rw [List.drop_append] at hdrop
  rcases List.mem_append.mp hdrop with hold | hnew
  · exact mem_heldTxs.mpr (.inr (.inr (.inl ⟨effect, hold, htx⟩)))
  · exact heffects effect (List.mem_of_mem_drop hnew) tx htx

/-- Who is answered by an effect that is seen after a step, and was not seen before. -/
theorem SystemStep.visible (h : SystemStep strategy s label s') {effect : Socket.Effect}
    (hmem : effect ∈ s'.visible) (htx : effect.tx? = some tx) :
    effect ∈ s.visible ∨ tx ∈ s.heldTxs := by
  obtain ⟨_, effects, heq, heffects⟩ := h.socket_heldTxs
  have hall := List.mem_of_mem_take hmem
  rw [heq, ← List.take_append_drop s.delivered s.socket.effects] at hall
  rcases List.mem_append.mp hall with hold | hnew
  · rcases List.mem_append.mp hold with hseen | hunseen
    · exact .inl hseen
    · exact .inr (mem_heldTxs.mpr (.inr (.inr (.inl ⟨effect, hunseen, htx⟩))))
  · exact .inr (heffects effect hnew tx htx)

theorem ChannelStep.heldTxs (h : ChannelStep s s' c w label w') (htx : tx ∈ w'.heldTxs) :
    tx ∈ w.heldTxs ∨ tx = s.fresh := by
  cases h with
  | user => exact .inl htx
  | stateCommand _ hfresh =>
      simp only [Channel.World.heldTxs, List.map_append, List.map_cons, List.map_nil, hfresh,
        List.mem_append, List.mem_singleton] at htx ⊢
      grind
  | @sendCommand label command _ hfresh =>
      have hid : command.tx? = some tx → tx = s.fresh :=
        fun h => (Channel.SendCommand.id_of_tx? h).symm.trans hfresh
      simp only [Channel.World.heldTxs, List.mem_append, mem_filterMap_concat] at htx ⊢
      grind
  | poll hpoll => exact .inl (hpoll.heldTxs htx)
  | @forward call htask =>
      rw [Channel.mem_heldTxs] at htx ⊢
      rw [htask]
      exact .inl (htx.imp_right fun h => Channel.txs_sent (List.mem_append_left _ h))
  | @fail call flow htask hrunning hflow =>
      rw [Channel.mem_heldTxs, htask]
      refine .inl ((Channel.proceed_heldTxs htx).imp_right fun h => ?_)
      rcases hflow with ⟨error, _, rfl⟩ | ⟨reason, _, rfl⟩
      · exact Channel.txs_failed h
      · cases h
  | publish htask =>
      rw [Channel.mem_heldTxs] at htx ⊢
      rw [htask]
      exact .inl htx

theorem ChannelStep.answers (h : ChannelStep s s' c w label w') {effect : Channel.Effect}
    (hmem : effect ∈ w'.effects) (htx : effect.tx? = some tx) :
    effect ∈ w.effects ∨ tx ∈ w.heldTxs := by
  cases h with
  | user | stateCommand | sendCommand | publish => exact .inl hmem
  | poll hpoll => exact (hpoll.effects_cases hmem).imp_right fun h => h tx htx
  | @forward call htask =>
      refine (List.mem_append.mp hmem).imp_right fun h => ?_
      rw [Channel.mem_heldTxs, htask]
      exact .inr (Channel.txs_sent
        (List.mem_append_right _ (List.mem_filterMap.mpr ⟨effect, h, htx⟩)))
  | @fail call flow htask hrunning hflow =>
      refine (Channel.proceed_effects hmem).imp_right fun h => ?_
      rw [Channel.mem_heldTxs, htask]
      rcases hflow with ⟨error, _, rfl⟩ | ⟨reason, _, rfl⟩
      · exact .inr (Channel.txs_failed (h tx htx))
      · cases h tx htx

theorem heldTxs_spawned {i : Nat} {spawn : Socket.ChannelSpawn} {state : Channel.State}
    {sent : Bool} {listener : Channel.Listener} {seen : Nat}
    (h : Run (machine strategy) ok init ls s)
    (heffect : s.socket.effects[i]? = some (.spawned spawn c state sent)) :
    (Channel.World.spawn listener state seen).heldTxs = [] := by
  obtain ⟨before, rfl⟩ := spawned_state h heffect
  cases before <;> rfl

/-! ## Along a run -/

/-- A sender that somebody holds after a step was held before, or was made in the step. -/
theorem SystemStep.heldTxs (h : SystemStep strategy s label s')
    (hrun : Run (machine strategy) ok init ls s) (htx : tx ∈ s'.heldTxs) :
    tx ∈ s.heldTxs ∨ tx = s.fresh := by
  rcases mem_heldTxs.mp htx with htx | htx | ⟨effect, hmem, htx⟩ | ⟨c, w', hw', htx⟩
  · exact h.queuedTxs htx
  · exact .inl (h.socket_heldTxs.1 htx)
  · exact .inl (h.undelivered hmem htx)
  · cases h.channel_cases hw' with
    | kept hw => exact .inl (mem_heldTxs.mpr (.inr (.inr (.inr ⟨c, w', hw, htx⟩))))
    | @stepped w hw hstep =>
        exact (hstep.heldTxs htx).imp_left fun htx =>
          mem_heldTxs.mpr (.inr (.inr (.inr ⟨c, w, hw, htx⟩)))
    | spawned heffect heq =>
        rw [heq, heldTxs_spawned hrun heffect] at htx
        cases htx

theorem result_eq_closed : s.result tx = .closed ↔ tx ∉ s.heldTxs ∧
    (∀ effect ∈ s.visible, effect.result? tx = none) ∧
      ∀ c w, s.channels.lookup c = some w → ∀ effect ∈ w.effects, effect.result? tx = none := by
  have channels : ((Dict.values s.channels).findSome? fun w =>
      w.effects.findSome? (Channel.Effect.result? tx)) = none ↔
        ∀ c w, s.channels.lookup c = some w → ∀ effect ∈ w.effects, effect.result? tx = none := by
    simp only [List.findSome?_eq_none_iff, Dict.mem_values]
    constructor
    · exact fun h c w hw => h w ⟨c, hw⟩
    · rintro h w ⟨c, hw⟩
      exact h c w hw
  rw [← channels, ← List.findSome?_eq_none_iff]
  unfold result oneshot
  cases s.visible.findSome? (Socket.Effect.result? tx) with
  | some result => simp
  | none =>
      cases (Dict.values s.channels).findSome? fun w =>
          w.effects.findSome? (Channel.Effect.result? tx) with
      | some result => simp
      | none => by_cases hheld : tx ∈ s.heldTxs <;> simp [hheld]

/-- A oneshot channel whose sender was dropped stays closed. -/
theorem SystemStep.closed (h : SystemStep strategy s label s')
    (hrun : Run (machine strategy) ok init ls s) (hfresh : tx < s.fresh)
    (hclosed : s.result tx = .closed) : s'.result tx = .closed := by
  obtain ⟨hheld, hvisible, hchannels⟩ := result_eq_closed.mp hclosed
  refine result_eq_closed.mpr ⟨fun htx => ?_, fun effect hmem => ?_, fun c w' hw' effect hmem => ?_⟩
  · rcases h.heldTxs hrun htx with htx | htx
    · exact hheld htx
    · exact Nat.ne_of_lt hfresh htx
  · refine Option.eq_none_iff_forall_ne_some.mpr fun result hr => ?_
    rcases h.visible hmem (Socket.Effect.tx?_of_result? hr) with hold | htx
    · rw [hvisible effect hold] at hr
      cases hr
    · exact hheld htx
  · refine Option.eq_none_iff_forall_ne_some.mpr fun result hr => ?_
    cases h.channel_cases hw' with
    | kept hw =>
        rw [hchannels c w' hw effect hmem] at hr
        cases hr
    | @stepped w hw hstep =>
        rcases hstep.answers hmem (Channel.Effect.tx?_of_result? hr) with hold | htx
        · rw [hchannels c w hw effect hold] at hr
          cases hr
        · exact hheld (mem_heldTxs.mpr (.inr (.inr (.inr ⟨c, w, hw, htx⟩))))
    | spawned _ heq =>
        rw [heq] at hmem
        cases hmem

end System

end PhoenixChannels
