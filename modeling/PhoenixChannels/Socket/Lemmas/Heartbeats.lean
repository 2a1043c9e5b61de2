import PhoenixChannels.Socket.Lemmas.Arrivals

/-!
# Heartbeats

A heartbeat is sent only when the one before it was answered, and `sent_heartbeat_reference` names
the one that was not.
-/

namespace PhoenixChannels.Socket

open Machine

/-! ## Reading a trace -/

/-- The heartbeat that was written. -/
def Effect.heartbeat? : Effect → Option Reference
  | write (.control control) .heartbeat => control.reference
  | _ => none

/-- The control message that was decoded answers the heartbeat with this reference. -/
def Input.answered? (input : Input) : Option Reference :=
  match input.message? with
  | some (.control control) => if control.event = .phoenix .reply then control.reference else none
  | _ => none

def Entry.heartbeat? (e : Entry) : Option Reference := e.effects.findSome? Effect.heartbeat?

/-- The heartbeat that was written in the iteration `i` is not answered, on the present connection. -/
structure Unanswered (trace : List Entry) (i : Nat) (reference : Reference) : Prop where
  sent : ∃ e, (trace)[i]? = some e ∧ e.heartbeat? = some reference
  since : ∀ e ∈ trace.drop (i + 1),
    e.broadcastsConnected = false ∧ e.input.answered? ≠ some reference

variable {strategy : Option (Nat → Duration)} {ok : World → Label → Prop} {ls : List Label}
variable {w w' : World} {input : Input} {c c' : Connected} {e : Entry} {trace : List Entry}
variable {reference : Reference} {reply : Reply} {fresh i : Nat} {now : Instant}
variable {iteration : Iteration}

theorem unanswered_append : Unanswered (trace ++ [e]) i reference ↔
    (Unanswered trace i reference ∧ e.broadcastsConnected = false ∧
      e.input.answered? ≠ some reference) ∨
    (i = trace.length ∧ e.heartbeat? = some reference) := by
  constructor
  · rintro ⟨⟨f, hf, hsent⟩, hsince⟩
    rcases Nat.lt_or_ge i trace.length with hlt | hge
    · rw [List.getElem?_append_left hlt] at hf
      rw [List.drop_append_of_le_length hlt] at hsince
      refine .inl ⟨⟨⟨f, hf, hsent⟩, fun f hf => hsince f (List.mem_append_left _ hf)⟩, ?_⟩
      exact hsince e (by simp)
    · rw [List.getElem?_append_right hge] at hf
      have hi : i - trace.length < 1 := (List.getElem?_eq_some_iff.mp hf).1
      have heq : i = trace.length := by omega
      subst heq
      have he : f = e := by simpa using hf.symm
      exact .inr ⟨rfl, he ▸ hsent⟩
  · rintro (⟨⟨⟨f, hf, hsent⟩, hsince⟩, he⟩ | ⟨rfl, hsent⟩)
    · have hlt := (List.getElem?_eq_some_iff.mp hf).1
      refine ⟨⟨f, by rw [List.getElem?_append_left hlt]; exact hf, hsent⟩, ?_⟩
      rw [List.drop_append_of_le_length hlt]
      intro g hg
      rcases List.mem_append.mp hg with hg | hg
      · exact hsince g hg
      · obtain rfl := List.mem_singleton.mp hg
        exact he
    · refine ⟨⟨e, by simp, hsent⟩, ?_⟩
      rw [List.drop_eq_nil_of_le (by simp)]
      intro g hg
      cases hg

/-! ## What an iteration does to the heartbeat -/

theorem handleReply_heartbeat :
    (c.handleReply reply fresh).1.sentHeartbeatReference = c.sentHeartbeatReference := by
  obtain ⟨_, _, _, _, h⟩ := c.handleReply_fst reply fresh
  rw [h]

theorem handleBroadcast_heartbeat {b : Broadcast} :
    (c.handleBroadcast b).1.sentHeartbeatReference = c.sentHeartbeatReference := by
  obtain ⟨_, h⟩ := c.handleBroadcast_cases b
  rw [h]

theorem joinTimedOut_heartbeat {key : JoinKey} :
    (c.joinTimedOut key).1.sentHeartbeatReference = c.sentHeartbeatReference := by
  rw [Connected.joinTimedOut_fst]
  rfl

/-- What an iteration with a connection does about heartbeats. -/
inductive HeartbeatCase (c : Connected) (input : Input) (iteration : Iteration) : Prop
  | kept : (∀ c', (World.outcome iteration).1.connection = some c' →
        c'.sentHeartbeatReference = c.sentHeartbeatReference) →
      (∀ effect ∈ (World.outcome iteration).2, effect.heartbeat? = none) →
      (∀ r, input.answered? = some r → c.sentHeartbeatReference ≠ some r) →
      HeartbeatCase c input iteration
  | sent (r : Reference) (c' : Connected) : c.sentHeartbeatReference = none →
      c'.sentHeartbeatReference = some r → input.answered? = none →
      iteration = .next (.connected c') [.write (heartbeatMessage r) .heartbeat] →
      HeartbeatCase c input iteration
  | cleared (r : Reference) (c' : Connected) : c.sentHeartbeatReference = some r →
      c'.sentHeartbeatReference = none → input.answered? = some r →
      iteration = .next (.connected c') [] → HeartbeatCase c input iteration

theorem handleReply_quiet {effect : Effect} (h : effect ∈ (c.handleReply reply fresh).2) :
    effect.heartbeat? = none := by
  rcases c.handleReply_cases reply fresh with ⟨join, _, heq⟩ | ⟨_, _, _, heq⟩ | ⟨_, _, heq⟩
  · obtain ⟨result, heffects, _⟩ := (c.removeJoin reply.key).2.finishJoin_effects reply join fresh
    rw [heq, heffects] at h
    obtain rfl := List.mem_singleton.mp h
    rfl
  · rw [heq] at h
    obtain rfl := List.mem_singleton.mp h
    rfl
  · rw [heq] at h
    cases h

theorem handleBroadcast_quiet {b : Broadcast} {effect : Effect}
    (h : effect ∈ (c.handleBroadcast b).2) : effect.heartbeat? = none := by
  rcases c.handleBroadcast_effects b with hnil | ⟨tx, hone⟩
  · rw [hnil] at h
    cases h
  · rw [hone] at h
    obtain rfl := List.mem_singleton.mp h
    rfl

theorem sendDisconnected_quiet {d : Disconnected} {effect : Effect}
    (h : effect ∈ (sendDisconnected c d).2) : effect.heartbeat? = none := by
  rcases mem_sendDisconnected.mp h with rfl | ⟨_, _, _, rfl⟩ | ⟨_, _, _, _, rfl⟩ <;> rfl

theorem HeartbeatCase.unchanged {effects : List Effect} (hanswered : input.answered? = none)
    (hsent : c'.sentHeartbeatReference = c.sentHeartbeatReference)
    (hquiet : ∀ effect ∈ effects, effect.heartbeat? = none) :
    HeartbeatCase c input (.next (.connected c') effects) := by
  refine .kept ?_ hquiet ?_
  · intro c'' hc
    cases hc
    exact hsent
  · intro r hr
    rw [hanswered] at hr
    cases hr

theorem HeartbeatCase.lost {state : State} {effects : List Effect}
    (hanswered : input.answered? = none) (hstate : ∀ c', state ≠ .connected c')
    (hquiet : ∀ effect ∈ effects, effect.heartbeat? = none) :
    HeartbeatCase c input (.next state effects) := by
  refine .kept ?_ hquiet ?_
  · intro c' hc
    exact absurd (Option.some.inj (Task.connection_eq_some.mp hc)) (hstate c')
  · intro r hr
    rw [hanswered] at hr
    cases hr

theorem HeartbeatCase.ended (hanswered : input.answered? = none)
    (htask : (World.outcome iteration).1.connection = none)
    (heffects : (World.outcome iteration).2 = []) : HeartbeatCase c input iteration := by
  refine .kept ?_ (by simp [heffects]) ?_
  · intro c' hc
    rw [htask] at hc
    cases hc
  · intro r hr
    rw [hanswered] at hr
    cases hr

theorem waitToReconnect_heartbeat (hanswered : input.answered? = none) :
    HeartbeatCase c input
      (.next (waitToReconnectConnected now c').1 (waitToReconnectConnected now c').2) := by
  refine .lost hanswered ?_ fun effect hmem => sendDisconnected_quiet hmem
  intro c'' h
  cases h

theorem answered?_eq_none (input : Input) (h : ∀ control, input.message? ≠ some (.control control)) :
    input.answered? = none := by
  unfold Input.answered?
  split
  · exact absurd ‹_› (h _)
  · rfl

/-- Of the messages, only the answer to the pending heartbeat clears it. -/
theorem handleMessage_heartbeat {m : Message} (hm : input.message? = some m) :
    HeartbeatCase c input (handleMessage now c m fresh) := by
  cases m with
  | control control =>
      obtain ⟨received, _, rfl, hdecode⟩ := message_cases hm
      obtain ⟨r, hr⟩ := Option.isSome_iff_exists.mp (decode_control_reference hdecode)
      simp only [handleMessage]
      split
      · rename_i hreply
        refine .cleared r _ (hreply.2 ▸ hr) rfl ?_ rfl
        simp [Input.answered?, hm, hreply.1, hr]
      · rename_i hother
        refine .kept ?_ (by simp [World.outcome]) ?_
        · intro c' hc
          cases hc
          rfl
        · intro r' hanswered heq
          simp only [Input.answered?, hm, Option.ite_none_right_eq_some] at hanswered
          exact hother ⟨hanswered.1, hanswered.2.trans heq.symm⟩
  | reply reply =>
      have hanswered := answered?_eq_none input (by simp [hm])
      simp only [handleMessage]
      split
      · exact .unchanged hanswered rfl (by simp)
      · exact .unchanged hanswered handleReply_heartbeat fun _ => handleReply_quiet
  | push push =>
      have hanswered := answered?_eq_none input (by simp [hm])
      simp only [handleMessage]
      split
      · refine .kept ?_ (by simp [World.outcome]) (by simp [hanswered])
        intro c' hc
        cases hc
        rfl
      · exact .unchanged hanswered rfl (by simp)
  | broadcast b =>
      have hanswered := answered?_eq_none input (by simp [hm])
      exact .unchanged hanswered handleBroadcast_heartbeat fun _ => handleBroadcast_quiet

theorem heartbeat_heartbeat {uuid : Uuid} {sent : Except WebSocketError Unit}
    (hsame : c'.sentHeartbeatReference = c.sentHeartbeatReference)
    (hanswered : input.answered? = none) :
    HeartbeatCase c input (Iteration.ofPanics (heartbeat now c' uuid sent)) := by
  unfold heartbeat
  cases hsent : c'.sentHeartbeatReference with
  | some r => exact .unchanged hanswered hsame (by simp)
  | none =>
      simp only [Option.bind_eq_bind]
      cases (heartbeatMessage (Reference.heartbeat uuid)).encode with
      | none => exact .ended hanswered rfl rfl
      | some encoded =>
          cases encoded with
          | error => exact .ended hanswered rfl rfl
          | ok =>
              cases sent with
              | ok => exact .sent _ _ (hsame ▸ hsent) rfl hanswered rfl
              | error => exact waitToReconnect_heartbeat hanswered

theorem socketResult_heartbeat {result : Except WebSocketError SocketMessage}
    {sent : Except WebSocketError Unit}
    (hm : (Input.socketResult result sent).message? = none) :
    HeartbeatCase c (.socketResult result sent) (handleSocketResult now c result sent fresh) := by
  have hanswered := answered?_eq_none (.socketResult result sent) (by simp [hm])
  have hunchanged : HeartbeatCase c (.socketResult result sent) (.next (.connected c) []) :=
    .unchanged hanswered rfl (by simp)
  have hdecoded : ∀ received, result = .ok received → ∀ decoded,
      Message.decode received = some decoded →
      HeartbeatCase c (.socketResult result sent) (handleDecoded now c decoded fresh) := by
    rintro received rfl decoded hdecode
    cases decoded with
    | ok m =>
        simp only [Input.message?, hdecode] at hm
        cases hm
    | error => exact hunchanged
  cases result with
  | error error =>
      cases error with
      | capacity | writeBufferFull | utf8 => exact hunchanged
      | attackAttempt | url | http | httpFormat => exact .ended hanswered rfl rfl
      | _ => exact waitToReconnect_heartbeat hanswered
  | ok received =>
      cases received with
      | text | binary => exact hdecoded _ rfl _ rfl
      | ping data =>
          cases sent with
          | ok => exact .unchanged hanswered rfl (by simp [Effect.heartbeat?])
          | error => exact waitToReconnect_heartbeat hanswered
      | pong data => exact hunchanged
      | close frame =>
          refine .lost hanswered (by intro c' h; cases h) fun effect hmem => ?_
          rcases List.mem_append.mp hmem with hmem | hmem
          · obtain rfl := List.mem_singleton.mp hmem
            rfl
          · exact sendDisconnected_quiet hmem
      | frame => exact .ended hanswered rfl rfl

theorem updateState_heartbeat {command : StateCommand} {outcome : ConnectOutcome}
    (hanswered : input.answered? = none) :
    HeartbeatCase c input
      (Iteration.ofPanics (updateState strategy now (.connected c) command outcome)) := by
  cases command with
  | connect connect => exact .unchanged hanswered rfl (by simp [Effect.heartbeat?])
  | disconnect tx =>
      refine .lost hanswered (by intro c' h; cases h) fun effect hmem => ?_
      simp only [List.mem_append, List.mem_singleton] at hmem
      rcases hmem with (rfl | hmem) | rfl
      · rfl
      · exact sendDisconnected_quiet hmem
      · rfl
  | shutdown =>
      refine .lost hanswered (by intro c' h; cases h) fun effect hmem => ?_
      rcases List.mem_append.mp hmem with hmem | hmem
      · obtain rfl := List.mem_singleton.mp hmem
        rfl
      · exact sendDisconnected_quiet hmem

theorem updateChannelState_heartbeat {command : ChannelStateCommand} {uuid : Uuid}
    {sent : Except WebSocketError Unit} (hanswered : input.answered? = none) :
    HeartbeatCase c input
      (Iteration.ofPanics (updateChannelState now c command uuid sent)) := by
  cases command with
  | join join =>
      simp only [updateChannelState, startJoin, Option.bind_eq_bind]
      rcases (joinMessage join uuid).encode with _ | _ | _
      · exact .ended hanswered rfl rfl
      · exact .ended hanswered rfl rfl
      cases sent with
      | ok => exact .unchanged hanswered rfl (by simp [joinMessage, Effect.heartbeat?])
      | error => exact waitToReconnect_heartbeat hanswered
  | leave l =>
      simp only [updateChannelState, leave, Option.bind_eq_bind]
      rcases (leaveMessage l uuid).encode with _ | _ | _
      · exact .ended hanswered rfl rfl
      · exact .ended hanswered rfl rfl
      cases sent with
      | ok =>
          refine .unchanged hanswered rfl fun effect hmem => ?_
          simp only [List.mem_append, List.mem_singleton, Option.mem_toList, Option.map_eq_some_iff]
            at hmem
          rcases hmem with (rfl | ⟨_, _, rfl⟩) | rfl <;> rfl
      | error error =>
          refine .lost hanswered (by intro c' h; cases h) fun effect hmem => ?_
          rcases List.mem_append.mp hmem with hmem | hmem
          · exact sendDisconnected_quiet hmem
          · obtain rfl := List.mem_singleton.mp hmem
            rfl

theorem send_heartbeat {command : ChannelSendCommand} {uuid : Uuid}
    {sent : Except WebSocketError Unit} (hanswered : input.answered? = none) :
    HeartbeatCase c input (Iteration.ofPanics (send now c command uuid sent)) := by
  cases command with
  | call k =>
      simp only [send, call, Option.bind_eq_bind]
      rcases (callMessage k uuid).encode with _ | _ | _
      · exact .ended hanswered rfl rfl
      · exact .ended hanswered rfl rfl
      cases sent with
      | ok => exact .unchanged hanswered rfl (by simp [callMessage, Effect.heartbeat?])
      | error error =>
          refine .lost hanswered (by intro c' h; cases h) fun effect hmem => ?_
          rcases List.mem_append.mp hmem with hmem | hmem
          · obtain rfl := List.mem_singleton.mp hmem
            rfl
          · exact sendDisconnected_quiet hmem
  | cast k =>
      simp only [send, cast, Option.bind_eq_bind]
      rcases (castMessage k uuid).encode with _ | _ | _
      · exact .ended hanswered rfl rfl
      · exact .ended hanswered rfl rfl
      cases sent with
      | ok => exact .unchanged hanswered rfl (by simp [castMessage, Effect.heartbeat?])
      | error => exact waitToReconnect_heartbeat hanswered

theorem select_heartbeat
    (h : select strategy now fresh (.connected c) input = some iteration) :
    HeartbeatCase c input iteration := by
  cases hm : input.message? with
  | some m =>
      rw [select_message h hm]
      exact handleMessage_heartbeat hm
  | none =>
      have hanswered := answered?_eq_none input (by simp [hm])
      cases input with
      | socketResult result sent =>
          cases h
          exact socketResult_heartbeat hm
      | channelSpawn spawn uuid delivered =>
          cases h
          exact .unchanged hanswered rfl (by simp [Effect.heartbeat?])
      | stateCommand command outcome =>
          simp only [select] at h
          split at h <;> cases h
          exact updateState_heartbeat hanswered
      | channelStateCommand command uuid sent =>
          cases h
          exact updateChannelState_heartbeat hanswered
      | channelSendCommand command uuid sent =>
          cases h
          exact send_heartbeat hanswered
      | joinTimeout index =>
          simp only [select] at h
          split at h
          · rename_i timeout htimeout
            split at h <;> cases h
            refine .unchanged hanswered joinTimedOut_heartbeat fun effect hmem => ?_
            rw [Connected.joinTimedOut_effects] at hmem
            simp only [Option.mem_toList, Option.map_eq_some_iff] at hmem
            obtain ⟨_, _, rfl⟩ := hmem
            rfl
          · cases h
      | heartbeat uuid sent =>
          simp only [select] at h
          split at h <;> cases h
          exact heartbeat_heartbeat rfl hanswered
      | sleepElapsed | closed | stop => cases h

/-- Without a connection there are no heartbeats, and a new connection begins without one. -/
structure BeginsWithout (input : Input) (iteration : Iteration) : Prop where
  answered : input.answered? = none
  quiet : ∀ effect ∈ (World.outcome iteration).2, effect.heartbeat? = none
  fresh : ∀ c', (World.outcome iteration).1.connection = some c' →
    c'.sentHeartbeatReference = none ∧ .connectivity .connected ∈ (World.outcome iteration).2

theorem BeginsWithout.unconnected {state : State} {effects : List Effect}
    (hanswered : input.answered? = none) (hstate : ∀ c', state ≠ .connected c')
    (hquiet : ∀ effect ∈ effects, effect.heartbeat? = none) :
    BeginsWithout input (.next state effects) := by
  refine ⟨hanswered, hquiet, fun c' hc => ?_⟩
  exact absurd (Option.some.inj (Task.connection_eq_some.mp hc)) (hstate c')

theorem waitAfterFailure_ne_connected {reconnect : Reconnect} :
    waitAfterFailure strategy now reconnect ≠ .connected c' := by
  unfold waitAfterFailure
  cases strategy <;> simp [Reconnect.wait]

theorem connect_heartbeat {state : State} {command : Connect} {outcome : ConnectOutcome}
    (hstate : ∀ c, state ≠ .connected c) (hanswered : input.answered? = none) :
    BeginsWithout input (Iteration.ofPanics (connect strategy now state command outcome)) := by
  cases state with
  | connected c => exact absurd rfl (hstate c)
  | neverConnected | disconnected =>
      cases outcome with
      | connected =>
          refine ⟨hanswered, by simp [connect, Iteration.ofPanics, socketConnect, World.outcome,
            Effect.heartbeat?], ?_⟩
          intro c' hc
          cases hc
          exact ⟨rfl, by simp [connect, Iteration.ofPanics, socketConnect, World.outcome]⟩
      | error | timeout =>
          exact .unconnected hanswered (fun _ => waitAfterFailure_ne_connected)
            (by simp [Effect.heartbeat?])
  | waitingToReconnect | shuttingDown =>
      exact .unconnected hanswered hstate (by simp [Effect.heartbeat?])
  | shutDown => exact ⟨hanswered, by simp [connect, Iteration.ofPanics, World.outcome],
      by intro c' hc; cases hc⟩

theorem select_begins {state : State} (hstate : ∀ c, state ≠ .connected c)
    (h : select strategy now fresh state input = some iteration) :
    BeginsWithout input iteration := by
  cases input with
  | channelSpawn spawn uuid delivered =>
      simp only [select] at h
      split at h <;> cases h
      exact .unconnected rfl hstate (by simp [Effect.heartbeat?])
  | stateCommand command outcome =>
      simp only [select] at h
      split at h <;> cases h
      cases command with
      | connect command => exact connect_heartbeat hstate rfl
      | disconnect tx =>
          have hdisconnect : disconnect state tx = (state, [.disconnectedTx tx]) := by
            cases state with
            | connected c => exact absurd rfl (hstate c)
            | _ => rfl
          simp only [updateState, hdisconnect]
          exact .unconnected rfl hstate (by simp [Effect.heartbeat?])
      | shutdown =>
          have hshutdown : shutdown state = (.shuttingDown, []) := by
            cases state with
            | connected c => exact absurd rfl (hstate c)
            | _ => rfl
          simp only [updateState, hshutdown]
          exact .unconnected rfl (by simp) (by simp)
  | sleepElapsed outcome =>
      simp only [select] at h
      split at h
      · rename_i sleep reconnect
        split at h <;> cases h
        cases outcome with
        | connected =>
            refine ⟨rfl, by simp [Socket.reconnect, socketConnect, Iteration.ofPanics,
              World.outcome, Effect.heartbeat?], ?_⟩
            intro c' hc
            cases hc
            exact ⟨rfl, by simp [Socket.reconnect, socketConnect, Iteration.ofPanics,
              World.outcome]⟩
        | error | timeout =>
            exact .unconnected rfl (fun _ => waitAfterFailure_ne_connected)
              (by simp [Effect.heartbeat?])
      · cases h
  | closed | stop =>
      cases state with
      | connected c => exact absurd rfl (hstate c)
      | _ => cases h <;> exact ⟨rfl, by simp [World.outcome], by intro c' hc; cases hc⟩
  | _ =>
      cases state with
      | connected c => exact absurd rfl (hstate c)
      | _ => cases h

/-! ## Along a run -/

/-- At most one heartbeat is not answered, and `sent_heartbeat_reference` is its reference. -/
structure HeartbeatsMatch (w : World) : Prop where
  one {i j : Nat} {r r' : Reference} :
    Unanswered w.trace i r → Unanswered w.trace j r' → i = j
  sent {c : Connected} : w.task.connection = some c →
    ∀ r, c.sentHeartbeatReference = some r ↔ ∃ i, Unanswered w.trace i r

theorem Entry.heartbeat?_eq_none (h : ∀ effect ∈ e.effects, effect.heartbeat? = none) :
    e.heartbeat? = none := List.findSome?_eq_none_iff.mpr h

theorem unanswered_quiet (hquiet : e.heartbeat? = none) :
    Unanswered (trace ++ [e]) i reference ↔ Unanswered trace i reference ∧
      e.broadcastsConnected = false ∧ e.input.answered? ≠ some reference := by
  rw [unanswered_append, hquiet]
  simp

theorem HeartbeatsMatch.connected (h : HeartbeatsMatch w)
    (htask : w.task = .selecting (.connected c))
    (hselect : select strategy w.now w.fresh (.connected c) input = some iteration) :
    HeartbeatsMatch (w.record (.connected c) input iteration) := by
  have hsame : Entry.broadcastsConnected
      ⟨w.now, .connected c, input, (World.outcome iteration).2⟩ = false :=
    (select_connected hselect).broadcastsConnected
  have hsent := h.sent (c := c) (by rw [htask]; rfl)
  cases select_heartbeat hselect with
  | kept hkept hquiet hanswered =>
      have hunanswered : ∀ i r, Unanswered (w.record (.connected c) input iteration).trace i r ↔
          Unanswered w.trace i r := by
        intro i r
        refine (unanswered_quiet (Entry.heartbeat?_eq_none hquiet)).trans
          ⟨And.left, fun hi => ⟨hi, hsame, fun hr => ?_⟩⟩
        exact hanswered r hr ((hsent r).mpr ⟨i, hi⟩)
      constructor
      · intro i j r r' hi hj
        exact h.one ((hunanswered i r).mp hi) ((hunanswered j r').mp hj)
      · intro c' hc' r
        rw [hkept c' hc', hsent r]
        exact exists_congr fun i => (hunanswered i r).symm
  | sent r c' hnone hsome hanswered heq =>
      subst heq
      have hunanswered : ∀ i r', Unanswered (w.record (.connected c) input
          (.next (.connected c') [.write (heartbeatMessage r) .heartbeat])).trace i r' ↔
          i = w.trace.length ∧ r = r' := by
        intro i r'
        refine unanswered_append.trans ⟨?_, fun ⟨hi, hr⟩ => .inr ⟨hi, congrArg some hr⟩⟩
        rintro (⟨hi, _⟩ | ⟨hi, hr⟩)
        · have := (hsent r').mpr ⟨i, hi⟩
          rw [hnone] at this
          cases this
        · exact ⟨hi, Option.some.inj hr⟩
      constructor
      · intro i j r₁ r₂ hi hj
        exact ((hunanswered i r₁).mp hi).1.trans ((hunanswered j r₂).mp hj).1.symm
      · intro c'' hc'' r'
        cases hc''
        rw [hsome]
        constructor
        · intro hr
          exact ⟨_, (hunanswered _ r').mpr ⟨rfl, Option.some.inj hr⟩⟩
        · rintro ⟨i, hi⟩
          exact congrArg some ((hunanswered i r').mp hi).2
  | cleared r c' hsome hnone hanswered heq =>
      subst heq
      have hunanswered : ∀ i r', ¬Unanswered (w.record (.connected c) input
          (.next (.connected c') [])).trace i r' := by
        intro i r' hi
        obtain ⟨hi, _, hr'⟩ := (unanswered_quiet rfl).mp hi
        have hr : c.sentHeartbeatReference = some r' := (hsent r').mpr ⟨i, hi⟩
        exact hr' (hanswered.trans (hsome.symm.trans hr))
      constructor
      · intro i j r₁ r₂ hi
        exact absurd hi (hunanswered i r₁)
      · intro c'' hc'' r'
        cases hc''
        simpa [hnone] using fun i => hunanswered i r'

theorem HeartbeatsMatch.begins {state : State} (h : HeartbeatsMatch w)
    (hbegins : BeginsWithout input iteration) :
    HeartbeatsMatch (w.record state input iteration) := by
  have hquiet := Entry.heartbeat?_eq_none (e := ⟨w.now, state, input, _⟩) hbegins.quiet
  constructor
  · intro i j r r' hi hj
    exact h.one ((unanswered_quiet hquiet).mp hi).1 ((unanswered_quiet hquiet).mp hj).1
  · intro c' hc' r
    obtain ⟨hnone, hconnectivity⟩ := hbegins.fresh c' hc'
    have hunanswered : ∀ i, ¬Unanswered (w.record state input iteration).trace i r := by
      intro i hi
      have hfalse := ((unanswered_quiet hquiet).mp hi).2.1
      rw [Entry.broadcastsConnected, List.any_eq_false] at hfalse
      exact hfalse _ hconnectivity rfl
    simpa [hnone] using hunanswered

theorem HeartbeatsMatch.select (h : HeartbeatsMatch w)
    (hs : (machine strategy).step w (.select input) = some w') : HeartbeatsMatch w' := by
  obtain ⟨state, iteration, htask, hselect, rfl⟩ := step_select hs
  cases state with
  | connected c => exact h.connected htask hselect
  | _ => exact h.begins (select_begins (by simp) hselect)

theorem heartbeatsMatch_of_run (h : Run (machine strategy) ok World.init ls w) :
    HeartbeatsMatch w := by
  refine h.invariant (I := HeartbeatsMatch) ?_ ?_
  · refine ⟨fun hi => ?_, fun hc => by cases hc⟩
    obtain ⟨⟨e, he, _⟩, _⟩ := hi
    cases he
  intro w label w' ih _ hs
  cases label with
  | select input => exact ih.select hs
  | elapse =>
      cases step_cases hs
      exact ⟨ih.one, ih.sent⟩
  | pushed | publish =>
      cases step_cases hs
      rename_i htask
      refine ⟨ih.one, fun hc => ih.sent ?_⟩
      rw [htask]
      exact hc

/-- The heartbeats of a connection up to here, and what can become of the pending one next. -/
structure HeartbeatDiscipline (strategy : Option (Nat → Duration)) (w : World) : Prop where
  one {i j : Nat} {r r' : Reference} :
    Unanswered w.trace i r → Unanswered w.trace j r' → i = j
  sent {c : Connected} : w.task.connection = some c →
    ∀ r, c.sentHeartbeatReference = some r ↔ ∃ i, Unanswered w.trace i r
  cleared {label : Label} {w' : World} {c c' : Connected} {r : Reference} :
    (machine strategy).step w label = some w' → w.task.connection = some c →
    w'.task.connection = some c' → c.sentHeartbeatReference = some r →
    c'.sentHeartbeatReference ≠ some r →
    c'.sentHeartbeatReference = none ∧ ∃ input control, label = .select input ∧
      input.message? = some (.control control) ∧ control.event = .phoenix .reply ∧
      control.reference = some r

theorem answered?_eq_some (h : input.answered? = some reference) :
    ∃ control, input.message? = some (.control control) ∧ control.event = .phoenix .reply ∧
      control.reference = some reference := by
  unfold Input.answered? at h
  split at h
  · rename_i control hcontrol
    simp only [Option.ite_none_right_eq_some] at h
    exact ⟨control, hcontrol, h⟩
  · cases h

theorem HeartbeatsMatch.discipline (h : HeartbeatsMatch w) : HeartbeatDiscipline strategy w := by
  refine ⟨h.one, h.sent, ?_⟩
  intro label w' c c' r hs hc hc' hsent hchanged
  cases label with
  | select input =>
      obtain ⟨state, iteration, htask, hselect, rfl⟩ := step_select hs
      obtain rfl : state = .connected c := by simpa [htask, Task.connection_eq_some] using hc
      cases select_heartbeat hselect with
      | kept hkept _ _ => exact absurd ((hkept c' hc').trans hsent) hchanged
      | sent r' _ hnone _ _ _ =>
          rw [hnone] at hsent
          cases hsent
      | cleared r' _ hsome hnone hanswered heq =>
          subst heq
          cases hc'
          obtain rfl : r' = r := Option.some.inj (hsome.symm.trans hsent)
          exact ⟨hnone, input, (answered?_eq_some hanswered).imp fun _ h => ⟨rfl, h⟩⟩
  | elapse =>
      cases step_cases hs
      exact absurd (Option.some.inj (hc.symm.trans hc') ▸ hsent) hchanged
  | pushed | publish =>
      cases step_cases hs
      rename_i htask
      rw [htask] at hc
      exact absurd (Option.some.inj (hc.symm.trans hc') ▸ hsent) hchanged

end PhoenixChannels.Socket
