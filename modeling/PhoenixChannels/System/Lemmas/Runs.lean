import PhoenixChannels.Socket.Lemmas.Spawns
import PhoenixChannels.System.Lemmas.Steps

/-!
# Runs of the client

The socket listener by itself runs whenever the client does, and each channel listener takes one of
a few kinds of steps.
-/

namespace PhoenixChannels.System

open Machine

variable {strategy : Option (Nat → Duration)} {s s' : System} {label : Label}
variable {ok : System → Label → Prop} {ls : List Label} {c c' : JoinReference}
variable {w w' : Channel.World}

/-! ## The socket listener -/

@[simp] theorem setSocket_socket (w : Socket.World) : (s.setSocket w).socket = w := by
  unfold setSocket
  split <;> rfl

@[simp] theorem setSocket_channels (w : Socket.World) : (s.setSocket w).channels = s.channels := by
  unfold setSocket
  split <;> rfl

@[simp] theorem setSocket_delivered (w : Socket.World) :
    (s.setSocket w).delivered = s.delivered := by
  unfold setSocket
  split <;> rfl

@[simp] theorem popPush_socket (read : Option TxId) : (s.popPush read).socket = s.socket := by
  cases read <;> rfl

@[simp] theorem popPush_channels (read : Option TxId) :
    (s.popPush read).channels = s.channels := by
  cases read <;> rfl

@[simp] theorem popPush_delivered (read : Option TxId) :
    (s.popPush read).delivered = s.delivered := by
  cases read <;> rfl

@[simp] theorem setChannel_channels : (s.setChannel c w).channels = s.channels.insert c w := rfl

theorem Receive.channels_eq {event : SocketEvent} {input : Socket.Input} {taken : System}
    (h : Receive s event input taken) : taken.channels = s.channels := by
  cases h <;> rfl

theorem Receive.delivered_eq {event : SocketEvent} {input : Socket.Input} {taken : System}
    (h : Receive s event input taken) : taken.delivered = s.delivered := by
  cases h <;> rfl

theorem Receive.eq {event : SocketEvent} {input : Socket.Input} {taken : System}
    (h : Receive s event input taken) : s.receive event = some (input, taken) := by
  cases h <;> simp [receive, *]

/-- What a step of the client is for the socket listener by itself. -/
inductive SocketChange (strategy : Option (Nat → Duration)) (s : System) (label : Label)
    (socket : Socket.World) : Prop
  | kept : socket = s.socket → SocketChange strategy s label socket
  | stepped {l : Socket.Label} : (∀ input, l ≠ .select input) →
      (Socket.machine strategy).step s.socket l = some socket →
      SocketChange strategy s label socket
  | selected {event : SocketEvent} {input : Socket.Input} {taken : System} :
      label = .select event → Receive s event input taken →
      (Socket.machine strategy).step s.socket (.select input) = some socket →
      SocketChange strategy s label socket

theorem SystemStep.socket_cases (h : SystemStep strategy s label s') :
    SocketChange strategy s label s'.socket := by
  cases h with
  | elapse duration => exact .stepped (l := .elapse duration) (by simp) rfl
  | user _ h => cases h <;> exact .kept rfl
  | select hreceive hstep =>
      rw [setSocket_socket]
      exact .selected rfl hreceive hstep
  | spawned | delivered => exact .kept rfl
  | pushed htask =>
      exact .stepped (l := .pushed) (by simp) (by simp [Socket.machine, Socket.World.step, htask])
  | pushedClosed htask =>
      exact .stepped (l := .pushed) (by simp) (by simp [Socket.machine, Socket.World.step, htask])
  | publish htask =>
      exact .stepped (l := .publish) (by simp) (by simp [Socket.machine, Socket.World.step, htask])
  | poll => exact .kept (by simp [setChannel])
  | forwardState | forwardSend | fail | publishChannel => exact .kept rfl

theorem select_running {v v' : Socket.World} {input : Socket.Input}
    (h : (Socket.machine strategy).step v (.select input) = some v') :
    v.task.isRunning = true := by
  cases Socket.step_cases h with
  | connected htask | unconnected htask => rw [htask]; rfl

/-- The socket listener runs by itself, under what the steps of the client give for its inputs. -/
theorem socket_run_of (okS : Socket.World → Socket.Label → Prop)
    (hother : ∀ w l, (∀ input, l ≠ .select input) → okS w l)
    (hselect : ∀ s event input taken, ok s (.select event) → Receive s event input taken →
      s.socket.task.isRunning = true → okS s.socket (.select input))
    (h : Run (machine strategy) ok init ls s) :
    ∃ ks, Run (Socket.machine strategy) okS Socket.World.init ks s.socket := by
  refine h.project System.socket (N := Socket.machine strategy) ?_
  intro s label s' hok hstep
  cases (step_cases hstep).socket_cases with
  | kept heq => exact .inl heq
  | stepped hl hstep => exact .inr ⟨_, hother _ _ hl, hstep⟩
  | selected hlabel hreceive hselected =>
      subst hlabel
      exact .inr ⟨_, hselect _ _ _ _ hok hreceive (select_running hselected), hselected⟩

theorem socket_run (h : Run (machine strategy) ok init ls s) :
    ∃ ks, Run (Socket.machine strategy) Free Socket.World.init ks s.socket :=
  socket_run_of Free (fun _ _ _ => trivial) (fun _ _ _ _ _ _ _ => trivial) h

theorem select_trace {v v' : Socket.World} {input : Socket.Input}
    (h : (Socket.machine strategy).step v (.select input) = some v') :
    ∃ e : Socket.Entry, v'.trace = v.trace ++ [e] ∧ e.input = input := by
  cases Socket.step_cases h with
  | connected | unconnected => exact ⟨_, rfl, rfl⟩

theorem setSocket_of_running {v : Socket.World} (h : v.task.isRunning = true) :
    s.setSocket v = { s with socket := v } := by
  unfold setSocket
  rw [if_pos h]

/-- What a step of the client adds to the trace of the socket listener. -/
inductive TraceChange (s s' : System) (label : Label) : Prop
  | kept : s'.socket.trace = s.socket.trace → TraceChange s s' label
  | selected {event : SocketEvent} {input : Socket.Input} {taken : System} {e : Socket.Entry} :
      label = .select event → Receive s event input taken →
      s'.socket.trace = s.socket.trace ++ [e] → e.input = input → TraceChange s s' label

theorem SystemStep.trace_cases (h : SystemStep strategy s label s') : TraceChange s s' label := by
  cases h.socket_cases with
  | kept heq => exact .kept (by rw [heq])
  | stepped hl hstep =>
      refine .kept ?_
      generalize s'.socket = socket at hstep
      cases Socket.step_cases hstep with
      | elapse | pushed | publish => rfl
      | connected | unconnected => exact absurd rfl (hl _)
  | selected hlabel hreceive hstep =>
      obtain ⟨e, htrace, hinput⟩ := select_trace hstep
      exact .selected hlabel hreceive htrace hinput

theorem effects_step {w w' : Socket.World} {l : Socket.Label}
    (h : (Socket.machine strategy).step w l = some w') : w.effects <+: w'.effects := by
  cases Socket.step_cases h with
  | elapse | pushed | publish => exact List.prefix_refl _
  | connected | unconnected =>
      simp only [Socket.World.effects, Socket.record_trace, List.flatMap_append]
      exact List.prefix_append _ _

theorem SystemStep.effects (h : SystemStep strategy s label s') :
    s.socket.effects <+: s'.socket.effects := by
  cases h.socket_cases with
  | kept heq => exact heq ▸ List.prefix_refl _
  | stepped _ hstep => exact effects_step hstep
  | selected _ _ hstep => exact effects_step hstep

theorem running_of_step {w w' : Socket.World} {l : Socket.Label}
    (h : (Socket.machine strategy).step w l = some w') (hw' : w'.task.isRunning = true) :
    w.task.isRunning = true := by
  cases Socket.step_cases h with
  | elapse => exact hw'
  | connected htask | unconnected htask | pushed htask | publish htask => rw [htask]; rfl

theorem SystemStep.running (h : SystemStep strategy s label s')
    (hs' : s'.socket.task.isRunning = true) : s.socket.task.isRunning = true := by
  cases h.socket_cases with
  | kept heq => exact heq ▸ hs'
  | stepped _ hstep => exact running_of_step hstep hs'
  | selected _ _ hstep => exact running_of_step hstep hs'

theorem isRunning_of_isConnected {task : Socket.Task} (h : task.isConnected = true) :
    task.isRunning = true := by
  simp only [Socket.Task.isConnected, Option.isSome_iff_exists, Socket.Task.connection_eq_some] at h
  obtain ⟨connected, h⟩ := h
  simp [Socket.Task.isRunning, h]

theorem delivered_le (h : Run (machine strategy) ok init ls s) :
    s.delivered ≤ s.socket.effects.length := by
  refine h.invariant (I := fun s => s.delivered ≤ s.socket.effects.length) (Nat.le_refl 0) ?_
  intro s label s' ih _ hstep
  have hstep := step_cases hstep
  have heffects := hstep.effects.length_le
  cases hstep with
  | user _ h => cases h <;> exact ih
  | select hreceive =>
      rw [setSocket_delivered, hreceive.delivered_eq]
      omega
  | spawned h => exact (List.getElem?_eq_some_iff.mp h).1
  | delivered h => exact (List.getElem?_eq_some_iff.mp h).1
  | poll => simpa [setChannel] using ih
  | _ => exact ih

/-! ## The effects that are seen -/

theorem outcome_effects {iteration : Socket.Iteration}
    (h : ∀ state, (Socket.World.outcome iteration).1 ≠ .publishing state) :
    (Socket.World.outcome iteration).2 = [] := by
  cases iteration with
  | next state effects => exact absurd rfl (h state)
  | push | exit | panic => rfl

/-- All effects have been seen unless a handler has just returned. -/
theorem delivered_of_run (h : Run (machine strategy) ok init ls s)
    (htask : ∀ state, s.socket.task ≠ .publishing state) :
    s.delivered = s.socket.effects.length := by
  refine h.invariant (I := fun s => (∀ state, s.socket.task ≠ .publishing state) →
    s.delivered = s.socket.effects.length) (fun _ => rfl) ?_ htask
  intro s label s' ih _ hs htask'
  cases step_cases hs with
  | user _ h => cases h <;> exact ih htask'
  | select hreceive hstep =>
      rw [setSocket_socket] at htask' ⊢
      rw [setSocket_delivered, hreceive.delivered_eq]
      cases Socket.step_cases hstep with
      | connected htask | unconnected htask =>
          rw [ih (by simp [htask]), Socket.record_effects, outcome_effects htask', List.append_nil]
  | spawned heffect | delivered heffect =>
      have hlt := (List.getElem?_eq_some_iff.mp heffect).1
      exact absurd (ih htask') (Nat.ne_of_lt hlt)
  | pushed htask | pushedClosed htask => exact absurd rfl (htask' _)
  | publish htask hdelivered => exact hdelivered
  | poll => simpa [setChannel] using ih (by simpa [setChannel] using htask')
  | elapse | forwardState | forwardSend | fail | publishChannel => exact ih htask'

/-- What becomes of the effects that the rest of the system has seen. -/
theorem SystemStep.visible_cases (h : SystemStep strategy s label s')
    (hle : s.delivered ≤ s.socket.effects.length) :
    s'.visible = s.visible ∨
      ∃ effect, s.socket.effects[s.delivered]? = some effect ∧ label = .deliver ∧
        s'.socket = s.socket ∧ s'.visible = s.visible ++ [effect] := by
  have kept : s'.delivered = s.delivered → s'.visible = s.visible := by
    intro heq
    obtain ⟨more, hmore⟩ := h.effects
    rw [visible, visible, heq, ← hmore, List.take_append_of_le_length hle]
  have seen : ∀ {effect : Socket.Effect}, s'.socket = s.socket → s'.delivered = s.delivered + 1 →
      s.socket.effects[s.delivered]? = some effect → s'.visible = s.visible ++ [effect] := by
    intro effect hsocket hdelivered heffect
    rw [visible, visible, hsocket, hdelivered, List.take_add_one, heffect]
    rfl
  cases h with
  | user _ h => cases h <;> exact .inl (kept rfl)
  | select hreceive => exact .inl (kept (by rw [setSocket_delivered, hreceive.delivered_eq]))
  | spawned heffect | delivered heffect => exact .inr ⟨_, heffect, rfl, rfl, seen rfl rfl heffect⟩
  | poll => exact .inl (kept (by simp [setChannel]))
  | _ => exact .inl (kept rfl)

/-! ## The channel listeners -/

/-- What a step of the client to `s'` does to the channel listener `c`, when it takes part in it. -/
inductive ChannelStep (s s' : System) (c : JoinReference) (w : Channel.World) :
    Label → Channel.World → Prop
  /-- It is shut down or dropped, or its join handle is taken. -/
  | user {label shutdownRx dropped joinHandle} : w.Asked shutdownRx dropped →
      ChannelStep s s' c w label { w with shutdownRx, dropped, joinHandle }
  | stateCommand {label command} : w.task.isRunning = true → command.tx = s.fresh →
      s'.fresh = s.fresh + 1 →
      ChannelStep s s' c w label { w with stateCommandRx := w.stateCommandRx ++ [command] }
  | sendCommand {label command} : w.task.isRunning = true → command.id = s.fresh →
      s'.fresh = s.fresh + 1 →
      ChannelStep s s' c w label { w with sendCommandRx := w.sendCommandRx ++ [command] }
  | poll {w' read} : Channel.PollStep s.surroundings w w' read → ChannelStep s s' c w (.poll c) w'
  | forward {call} : w.task = .calling call →
      ChannelStep s s' c w (.forward c) { w with
        task := .publishing (call.sent s.fresh).1
        effects := w.effects ++ (call.sent s.fresh).2 }
  | fail {call flow} : w.task = .calling call → s.socket.task.isRunning = false →
      (∃ error, s.socketShutdownError = .ok error ∧ flow = call.failed error) ∨
        (∃ reason, s.socketShutdownError = .error reason ∧ flow = .panic reason) →
      ChannelStep s s' c w (.fail c) (w.proceed flow)
  | publish {state} : w.task = .publishing state →
      ChannelStep s s' c w (.publishChannel c)
        { w with task := .select state, status := state.status }

/-- Where a channel listener comes from after a step: it is what it was, it took part in the step,
or it was spawned. -/
inductive ChannelChange (s s' : System) (c : JoinReference) (label : Label) (w' : Channel.World) :
    Prop
  | kept : s.channels.lookup c = some w' → ChannelChange s s' c label w'
  | stepped {w : Channel.World} : s.channels.lookup c = some w → ChannelStep s s' c w label w' →
      ChannelChange s s' c label w'
  | spawned {spawn state sent} :
      s.socket.effects[s.delivered]? = some (.spawned spawn c state sent) →
      w' = .spawn { topic := spawn.topic, payload := spawn.payload.getD .empty, joinReference := c }
        state s.connectivity.subscribe →
      s'.delivered = s.delivered + 1 → ChannelChange s s' c label w'

theorem lookup_init : init.channels.lookup c = none := AList.lookup_empty c

theorem lookup_setChannel :
    (s.setChannel c w).channels.lookup c' = if c' = c then some w else s.channels.lookup c' :=
  Dict.lookup_insert_eq _ _ _ _

theorem ChannelStep.change {t : System} {w₁ w₂ : Channel.World}
    (h : ChannelStep s s' c' w₁ label w₂) (hw₁ : s.channels.lookup c' = some w₁)
    (ht : t.channels = s.channels) (hw' : (t.setChannel c' w₂).channels.lookup c = some w') :
    ChannelChange s s' c label w' := by
  rw [lookup_setChannel] at hw'
  split at hw'
  · rename_i hc
    cases hw'
    subst hc
    exact .stepped hw₁ h
  · exact .kept (ht ▸ hw')

theorem SystemStep.channel_cases (h : SystemStep strategy s label s')
    (hw' : s'.channels.lookup c = some w') : ChannelChange s s' c label w' := by
  cases h with
  | elapse => exact .kept hw'
  | user _ h =>
      cases h with
      | caller | socketCommand | channelSpawn => exact .kept hw'
      | channel hw hasked => exact (ChannelStep.user hasked).change hw rfl hw'
      | stateCommand hw hrunning _ htx =>
          exact (ChannelStep.stateCommand hrunning htx rfl).change (t := s) hw rfl hw'
      | sendCommand hw hrunning _ hid =>
          exact (ChannelStep.sendCommand hrunning hid rfl).change (t := s) hw rfl hw'
  | select hreceive =>
      rw [setSocket_channels, hreceive.channels_eq] at hw'
      exact .kept hw'
  | spawned heffect =>
      rw [Dict.lookup_insert_eq] at hw'
      split at hw'
      · rename_i hc
        cases hw'
        subst hc
        exact .spawned heffect rfl rfl
      · exact .kept hw'
  | delivered | pushed | pushedClosed | publish => exact .kept hw'
  | poll hw hpoll => exact (ChannelStep.poll hpoll).change hw (popPush_channels _) hw'
  | forwardState hw htask => exact (ChannelStep.forward htask).change (t := s) hw rfl hw'
  | forwardSend hw htask => exact (ChannelStep.forward htask).change (t := s) hw rfl hw'
  | fail hw htask hrunning hflow =>
      exact (ChannelStep.fail htask hrunning hflow).change (t := s) hw rfl hw'
  | publishChannel hw htask => exact (ChannelStep.publish htask).change hw rfl hw'

/-- What every listener has when it is spawned, and keeps in each of its steps, each listener has in
every state that is reached. -/
theorem channel_invariant {I : JoinReference → Channel.World → Prop}
    (hspawn : ∀ c listener state seen, listener.joinReference = c → I c (.spawn listener state seen))
    (hstep : ∀ s s' c w label w', I c w → ChannelStep s s' c w label w' → I c w')
    (h : Run (machine strategy) ok init ls s) (hw : s.channels.lookup c = some w) : I c w := by
  refine h.invariant (I := fun s => ∀ c w, s.channels.lookup c = some w → I c w) ?_ ?_ c w hw
  · intro c w hw
    rw [lookup_init] at hw
    cases hw
  intro s label s' ih _ hs c w' hw'
  cases (step_cases hs).channel_cases hw' with
  | kept hw => exact ih c w' hw
  | stepped hw h => exact hstep s s' c _ label w' (ih c _ hw) h
  | spawned _ h _ => exact h ▸ hspawn _ _ _ _ rfl

theorem spawned_state {i : Nat} {spawn : Socket.ChannelSpawn} {state : Channel.State} {sent : Bool}
    (h : Run (machine strategy) ok init ls s)
    (heffect : s.socket.effects[i]? = some (.spawned spawn c state sent)) :
    ∃ before, state = Socket.channelState before := by
  obtain ⟨ks, hks⟩ := socket_run h
  obtain ⟨e, he, hmem⟩ := List.mem_flatMap.mp (List.mem_of_getElem? heffect)
  have hcause := Socket.Entry.cause (Socket.possible_of_run hks e he) hmem
  generalize e.before = before, e.input = input at hcause
  cases hcause with
  | quiet hq => cases hq.quiet
  | spawned => exact ⟨before, rfl⟩

theorem ChannelStep.listener (h : ChannelStep s s' c w label w') : w'.listener = w.listener := by
  have proceeded : ∀ {w : Channel.World} {flow : Channel.Flow},
      (w.proceed flow).listener = w.listener := by
    intro w flow
    cases flow <;> rfl
  cases h with
  | poll hpoll =>
      cases hpoll with
      | mismatch _ hmismatch => cases hmismatch <;> rfl
      | ready _ hready =>
          rw [proceeded]
          cases hready <;> rfl
      | _ => rfl
  | fail => exact proceeded
  | _ => rfl

theorem ChannelStep.effects_grow (h : ChannelStep s s' c w label w') :
    w.effects <+: w'.effects := by
  cases h with
  | user | stateCommand | sendCommand | publish => exact List.prefix_refl _
  | poll hpoll => exact hpoll.effects_grow
  | forward => exact List.prefix_append _ _
  | fail => exact Channel.proceed_effects_grow _

/-- The join reference of a listener is the one under which the client holds it. -/
theorem joinReference_of_run (h : Run (machine strategy) ok init ls s)
    (hw : s.channels.lookup c = some w) : w.listener.joinReference = c := by
  refine channel_invariant (I := fun c w => w.listener.joinReference = c)
    (fun _ _ _ _ h => h) ?_ h hw
  intro s s' c w label w' ih hstep
  rw [hstep.listener]
  exact ih

/-! ## Spawns -/

theorem SystemStep.delivered_mono (h : SystemStep strategy s label s') :
    s.delivered ≤ s'.delivered := by
  cases h with
  | user _ h => cases h <;> exact Nat.le_refl _
  | select hreceive => rw [setSocket_delivered, hreceive.delivered_eq]
  | spawned | delivered => exact Nat.le_succ _
  | poll => simp [setChannel]
  | _ => exact Nat.le_refl _

/-- Every listener was spawned by an effect that was delivered. -/
theorem spawned_of_lookup (h : Run (machine strategy) ok init ls s)
    (hw : s.channels.lookup c = some w) :
    ∃ i < s.delivered, ∃ e, s.socket.effects[i]? = some e ∧ e.spawned? = some c := by
  refine h.invariant (I := fun s => ∀ c w, s.channels.lookup c = some w →
    ∃ i < s.delivered, ∃ e, s.socket.effects[i]? = some e ∧ e.spawned? = some c) ?_ ?_ c w hw
  · intro c w hw
    rw [lookup_init] at hw
    cases hw
  intro s label s' ih _ hs c w' hw'
  have hstep := step_cases hs
  have heffects : ∀ {i : Nat} {e : Socket.Effect}, s.socket.effects[i]? = some e →
      s'.socket.effects[i]? = some e := by
    intro i e he
    obtain ⟨hi, rfl⟩ := List.getElem?_eq_some_iff.mp he
    exact List.prefix_iff_getElem?.mp hstep.effects i hi
  cases hstep.channel_cases hw' with
  | kept hw =>
      obtain ⟨i, hi, e, he, hspawned⟩ := ih c w' hw
      exact ⟨i, lt_of_lt_of_le hi hstep.delivered_mono, e, heffects he, hspawned⟩
  | stepped hw h =>
      obtain ⟨i, hi, e, he, hspawned⟩ := ih c _ hw
      exact ⟨i, lt_of_lt_of_le hi hstep.delivered_mono, e, heffects he, hspawned⟩
  | spawned heffect _ hdelivered =>
      exact ⟨s.delivered, by omega, _, heffects heffect, rfl⟩

/-- A listener is spawned under a join reference that no other listener has. -/
theorem lookup_of_spawned {spawn : Socket.ChannelSpawn} {state : Channel.State} {sent : Bool}
    (h : Run (machine strategy) ok init ls s)
    (heffect : s.socket.effects[s.delivered]? = some (.spawned spawn c state sent)) :
    s.channels.lookup c = none := by
  cases hw : s.channels.lookup c with
  | none => rfl
  | some w =>
      obtain ⟨ks, hks⟩ := socket_run h
      obtain ⟨i, hi, e, he, hspawned⟩ := spawned_of_lookup h hw
      exact absurd (Socket.spawned_once hks he heffect hspawned rfl) (Nat.ne_of_lt hi)

theorem SystemStep.lookup_isSome (h : SystemStep strategy s label s')
    (hw : (s.channels.lookup c).isSome = true) : (s'.channels.lookup c).isSome = true := by
  have inserted : ∀ {t : System} {c' : JoinReference} {w' : Channel.World},
      t.channels = s.channels → ((t.setChannel c' w').channels.lookup c).isSome = true := by
    intro t c' w' ht
    rw [lookup_setChannel]
    split
    · rfl
    · exact ht ▸ hw
  cases h with
  | user _ h =>
      cases h with
      | caller | socketCommand | channelSpawn => exact hw
      | channel | stateCommand | sendCommand => exact inserted (t := s) rfl
  | select hreceive => rwa [setSocket_channels, hreceive.channels_eq]
  | spawned =>
      rw [Dict.lookup_insert_eq]
      split
      · rfl
      · exact hw
  | poll => exact inserted (popPush_channels _)
  | forwardState | forwardSend | fail | publishChannel => exact inserted (t := s) rfl
  | _ => exact hw

theorem SystemStep.channel_next (h : SystemStep strategy s label s')
    (hrun : Run (machine strategy) ok init ls s) (hw : s.channels.lookup c = some w) :
    ∃ w', s'.channels.lookup c = some w' ∧ (w' = w ∨ ChannelStep s s' c w label w') := by
  obtain ⟨w', hw'⟩ := Option.isSome_iff_exists.mp (h.lookup_isSome (c := c) (by simp [hw]))
  refine ⟨w', hw', ?_⟩
  cases h.channel_cases hw' with
  | kept hw₁ => exact .inl (Option.some.inj (hw₁.symm.trans hw))
  | stepped hw₁ h =>
      cases Option.some.inj (hw₁.symm.trans hw)
      exact .inr h
  | spawned heffect =>
      rw [lookup_of_spawned hrun heffect] at hw
      cases hw

/-! ## Along a run -/

theorem SystemStep.fresh_mono (h : SystemStep strategy s label s') : s.fresh ≤ s'.fresh := by
  cases h with
  | user _ h =>
      cases h with
      | caller | channel => exact Nat.le_refl _
      | socketCommand | channelSpawn | stateCommand | sendCommand => exact Nat.le_succ _
  | @select event input taken socket hreceive =>
      have htaken : (taken.setSocket socket).fresh = taken.fresh := by
        unfold setSocket
        split <;> rfl
      rw [htaken]
      cases hreceive <;> exact Nat.le_refl _
  | @poll c w w' read => cases read <;> exact Nat.le_refl _
  | forwardState | forwardSend => exact Nat.le_succ _
  | _ => exact Nat.le_refl _

theorem effects_of_run {s₀ : System} (h : Run (machine strategy) ok s₀ ls s) :
    s₀.socket.effects <+: s.socket.effects := by
  refine h.invariant (I := fun s => s₀.socket.effects <+: s.socket.effects)
    (List.prefix_refl _) ?_
  intro s label s' ih _ hs
  exact ih.trans (step_cases hs).effects

end PhoenixChannels.System
