import PhoenixChannels.Socket.Lemmas.Connectivity
import PhoenixChannels.Socket.Lemmas.Memberships

/-!
# Frames and their replies

Every join and every call that a connection has pending was written on that connection, so whoever is
answered with a reply had a frame of its own written before, and no connection was lost or made in
between.
-/

namespace PhoenixChannels.Socket

open Machine

/-- The iteration number `i` took the command of `input` and wrote `message`, and the connection has
not changed since. -/
def WrittenOn (trace : List Entry) (i : Nat) (input : Input) (message : Message) : Prop :=
  (∃ e origin, (trace)[i]? = some e ∧ e.input = input ∧ .write message origin ∈ e.effects) ∧
    ∀ j e, i < j → (trace)[j]? = some e → connectivities e.effects = []

/-- A frame was written, and later a reply was read on the same connection. -/
structure Exchange (trace : List Entry) (sent answered : Nat) (message : Message)
    (reply : Reply) : Prop where
  order : sent < answered
  written : ∃ e origin, (trace)[sent]? = some e ∧ .write message origin ∈ e.effects
  read : ∃ e, (trace)[answered]? = some e ∧ e.reply? = some reply
  connection : ∀ k e, sent < k → k < answered → (trace)[k]? = some e →
    connectivities e.effects = []

/-- The pending joins and calls of a connection were written on it. -/
structure RequestsWritten (trace : List Entry) (c : Connected) : Prop where
  join {key : JoinKey} {join : Join} : c.pendingJoin key = some join → join.key = key ∧
    ∃ i uuid, WrittenOn trace i (.channelStateCommand (.join join) uuid (.ok ()))
      (joinMessage join uuid)
  call {key : JoinKey} {reference : Reference} {tx : TxId} :
    c.pendingCall key reference = some tx → ∃ i k uuid, k.key = key ∧ k.replyTx = tx ∧
      Reference.new uuid = reference ∧
        WrittenOn trace i (.channelSendCommand (.call k) uuid (.ok ())) (callMessage k uuid)

variable {strategy : Option (Nat → Duration)} {ok : World → Label → Prop} {ls : List Label}
variable {w : World} {e : Entry} {trace : List Entry} {input : Input} {c c' : Connected}
variable {message : Message} {i : Nat} {reply : Reply} {tx : TxId}

/-! ## The trace -/

theorem WrittenOn.append (h : WrittenOn trace i input message)
    (he : connectivities e.effects = []) : WrittenOn (trace ++ [e]) i input message := by
  obtain ⟨⟨e₀, origin, he₀, hinput, hwritten⟩, hsince⟩ := h
  constructor
  · exact ⟨e₀, origin, List.getElem?_append_left (List.getElem?_eq_some_iff.mp he₀).1 ▸ he₀,
      hinput, hwritten⟩
  · intro j e' hj he'
    rw [List.getElem?_append] at he'
    split at he'
    · exact hsince j e' hj he'
    · obtain rfl := List.mem_singleton.mp (List.mem_of_getElem? he')
      exact he

theorem WrittenOn.last {origin : Origin} (hinput : e.input = input)
    (hwritten : .write message origin ∈ e.effects) :
    WrittenOn (trace ++ [e]) trace.length input message := by
  constructor
  · exact ⟨e, origin, by simp, hinput, hwritten⟩
  · intro j e' hj he'
    have hlt := (List.getElem?_eq_some_iff.mp he').1
    simp only [List.length_append, List.length_singleton] at hlt
    omega

theorem WrittenOn.exchange {n : Nat} (h : WrittenOn (trace.take n) i input message)
    (he : (trace)[n]? = some e) (hr : e.reply? = some reply) :
    Exchange trace i n message reply := by
  obtain ⟨⟨e₀, origin, he₀, _, hwritten⟩, hsince⟩ := h
  have hlt : i < n := by
    have hlt := (List.getElem?_eq_some_iff.mp he₀).1
    exact lt_of_lt_of_le hlt (List.length_take_le _ _)
  refine ⟨hlt, ⟨e₀, origin, ?_, hwritten⟩, ⟨e, he, hr⟩, ?_⟩
  · rwa [List.getElem?_take_of_lt hlt] at he₀
  · intro k e' hik hkn he'
    exact hsince k e' hik (by rwa [List.getElem?_take_of_lt hkn])

/-! ## The invariant -/

/-- A join that is pending now was pending before, or it was written just now; so for a call. -/
theorem RequestsWritten.write (h : RequestsWritten trace c) (he : connectivities e.effects = [])
    (hjoin : ∀ key join, c'.pendingJoin key = some join → c.pendingJoin key = some join ∨
      join.key = key ∧ ∃ uuid, WrittenOn (trace ++ [e]) trace.length
        (.channelStateCommand (.join join) uuid (.ok ())) (joinMessage join uuid))
    (hcall : ∀ key reference tx, c'.pendingCall key reference = some tx →
      c.pendingCall key reference = some tx ∨ ∃ k uuid, k.key = key ∧ k.replyTx = tx ∧
        Reference.new uuid = reference ∧ WrittenOn (trace ++ [e]) trace.length
          (.channelSendCommand (.call k) uuid (.ok ())) (callMessage k uuid)) :
    RequestsWritten (trace ++ [e]) c' := by
  constructor
  · intro key join hj
    rcases hjoin key join hj with hj | ⟨hkey, uuid, hwritten⟩
    · obtain ⟨hkey, i, uuid, hi⟩ := h.join hj
      exact ⟨hkey, i, uuid, hi.append he⟩
    · exact ⟨hkey, trace.length, uuid, hwritten⟩
  · intro key reference tx hc
    rcases hcall key reference tx hc with hc | ⟨k, uuid, hkey, htx, href, hwritten⟩
    · obtain ⟨i, k, uuid, hkey, htx, href, hi⟩ := h.call hc
      exact ⟨i, k, uuid, hkey, htx, href, hi.append he⟩
    · exact ⟨trace.length, k, uuid, hkey, htx, href, hwritten⟩

theorem RequestsWritten.append (h : RequestsWritten trace c) (he : connectivities e.effects = [])
    (hjoin : ∀ key join, c'.pendingJoin key = some join → c.pendingJoin key = some join)
    (hcall : ∀ key reference tx, c'.pendingCall key reference = some tx →
      c.pendingCall key reference = some tx) : RequestsWritten (trace ++ [e]) c' :=
  h.write he (fun key join hj => .inl (hjoin key join hj))
    fun key reference tx hc => .inl (hcall key reference tx hc)

/-- An iteration that keeps the connection says nothing about connectivity. -/
theorem ConnectedIteration.connectivities_nil {now : Instant} {fresh : TxId} {iteration : Iteration}
    (h : ConnectedIteration now fresh c input iteration)
    (hc' : (World.outcome iteration).1.state = some (.connected c')) :
    connectivities (World.outcome iteration).2 = [] := by
  have hb := h.broadcasts hc'
  generalize hchanges : connectivities (World.outcome iteration).2 = changes at hb
  cases hb with
  | kept => rfl
  | lost d hlost => exact absurd rfl (hlost c')
  | unconnected hne => exact absurd rfl (hne c)
  | connected =>
      have hmem : Connectivity.connected ∈ connectivities (World.outcome iteration).2 := by
        simp [hchanges]
      obtain ⟨effect, heffect, hconnected⟩ := List.mem_filterMap.mp hmem
      have hnot : Entry.broadcastsConnected
          ⟨now, .connected c, input, (World.outcome iteration).2⟩ = false := h.broadcastsConnected
      rw [Entry.broadcastsConnected, List.any_eq_false] at hnot
      cases effect <;> cases hconnected
      exact absurd rfl (hnot _ heffect)

theorem requestsWritten_invariant : TraceInvariant ok RequestsWritten where
  fresh := by
    intro trace e now timeout _
    constructor
    · intro key join h
      simp at h
    · intro key reference tx h
      simp at h
  kept := by
    intro w c c' input iteration htask h _ hiter hc'
    have hnil := hiter.connectivities_nil hc'
    cases hiter with
    | quiet heartbeat reference hr hq =>
        cases hc'
        exact h.append hnil (fun _ _ hj => hj) (fun _ _ _ hc => hc)
    | spawned uuid | push p pushTx hd hp | cast k uuid =>
        cases hc'
        exact h.append hnil (fun _ _ hj => hj) (fun _ _ _ hc => hc)
    | leave l uuid =>
        cases hc'
        exact h.append hnil (by simp) (by simp)
    | reply r hd =>
        cases hc'
        refine h.append hnil ?_ ?_
        · intro key join hj
          rw [Connected.handleReply_pendingJoin] at hj
          split at hj
          · cases hj
          · exact hj
        · intro key reference tx hc
          rw [Connected.handleReply_pendingCall] at hc
          split at hc
          · cases hc
          · exact hc
    | broadcast b hd =>
        obtain ⟨map, hmap⟩ := c.handleBroadcast_cases b
        cases hc'
        rw [hmap]
        exact h.append hnil (fun _ _ hj => hj) (fun _ _ _ hc => hc)
    | join j uuid =>
        cases hc'
        refine h.write hnil (fun key join hj => ?_) fun _ _ _ hc => .inl hc
        rw [Connected.joined_pendingJoin] at hj
        split at hj
        · cases hj
          exact .inr ⟨Eq.symm ‹_›, uuid, .last rfl (List.mem_singleton_self _)⟩
        · exact .inl hj
    | call k uuid =>
        cases hc'
        refine h.write hnil (fun _ _ hj => .inl hj) fun key reference tx hc => ?_
        rw [Connected.called_pendingCall] at hc
        split at hc
        · rename_i hkey
          cases hc
          exact .inr ⟨k, uuid, hkey.1.symm, rfl, hkey.2.symm, .last rfl (List.mem_singleton_self _)⟩
        · exact .inl hc
    | timedOut index timer htimer hdue =>
        simp only [World.outcome, Connected.joinTimedOut_fst] at hc'
        cases hc'
        refine h.append hnil ?_ (by simp; intros; assumption)
        intro key join hj
        rw [Connected.removeJoin_pendingJoin] at hj
        split at hj
        · cases hj
        · exact hj
    | lost d hr hstate hq =>
        subst hstate
        exact absurd (by simpa [World.outcome] using hc') lostState_ne_connected
    | exit error => cases hc'
    | panic => cases hc'

/-! ## Along a run -/

/-- What an invariant of the connection and the trace says at the beginning of each iteration. -/
theorem TraceInvariant.always {J : List Entry → Connected → Prop} (hJ : TraceInvariant ok J)
    (h : Run (machine strategy) ok World.init ls w) :
    History.Always (fun before e => ∀ c, e.before = .connected c → J before c) w.trace := by
  refine h.invariant_of_run (I := fun w =>
    History.Always (fun before e => ∀ c, e.before = .connected c → J before c) w.trace)
    History.Always.nil ?_
  intro ls w label w' hrun ih _ hs
  cases step_cases hs with
  | elapse | pushed | publish => exact ih
  | connected htask =>
      refine ih.append ?_
      intro c hc
      exact hJ.of_run hrun c (by rw [htask]; exact congrArg some hc)
  | unconnected htask hne =>
      refine ih.append ?_
      intro c hc
      exact absurd hc (hne c)

theorem Entry.effects_of_reply (h : e.Possible) (hr : e.reply? = some reply) :
    ∃ c fresh, e.before = .connected c ∧ e.effects = (c.handleReply reply fresh).2 := by
  cases h with
  | @connected fresh c iteration hbefore hiter heffects =>
      refine ⟨c, fresh, hbefore, heffects.trans ?_⟩
      have hr : e.input.reply? = some reply := hr
      generalize e.input = input at hiter hr
      cases hiter with
      | reply r hd =>
          obtain rfl : r = reply := by simpa [Input.reply?, hd] using hr
          rfl
      | quiet heartbeat reference hp hq =>
          cases hr.symm.trans (Input.reply?_of_silent (Input.silent_of_passive hp))
      | lost d hs hstate hq => cases hr.symm.trans (Input.reply?_of_silent hs)
      | broadcast b hd => simp [Input.reply?, hd] at hr
      | push p pushTx hd hp => simp [Input.reply?, hd] at hr
      | panic hnone => cases hr.symm.trans hnone
      | _ => cases hr
  | unconnected hs hiter he => cases hr.symm.trans hiter.reply?_eq_none

theorem Entry.reply_of_resolves {effect : Effect} {origin : Origin} (h : e.Possible)
    (hmem : effect ∈ e.effects) (hresolves : effect.resolves? = some origin) :
    ∃ reply, e.reply? = some reply := by
  cases hr : e.reply? with
  | some reply => exact ⟨reply, rfl⟩
  | none =>
      have hnil := List.filterMap_eq_nil_iff.mp (e.resolved_of_no_reply h hr) effect hmem
      cases hnil.symm.trans hresolves

theorem written_of_take {n : Nat} (h : WrittenOn (trace.take n) i input message) :
    ∃ e, (trace)[i]? = some e ∧ e.input = input := by
  obtain ⟨⟨e, origin, he, hinput, _⟩, _⟩ := h
  have hlt : i < n := lt_of_lt_of_le (List.getElem?_eq_some_iff.mp he).1 (List.length_take_le _ _)
  exact ⟨e, by rwa [List.getElem?_take_of_lt hlt] at he, hinput⟩

/-- A call that is answered with a reply: its frame was written, and the reply is to that frame. -/
theorem exchange_of_reply (h : Run (machine strategy) ok World.init ls w) {n : Nat}
    {result : Except Channel.CallError Payload} (he : (w.trace)[n]? = some e)
    (heffect : .replyTx tx result ∈ e.effects)
    (hresolves : (Effect.replyTx tx result).resolves? = some (.call tx)) :
    ∃ i k uuid r, k.replyTx = tx ∧ Exchange w.trace i n (callMessage k uuid) r ∧
      (callMessage k uuid).id? = some r.id ∧ e.effects = [.replyTx tx result] ∧
      (∃ e₀, (w.trace)[i]? = some e₀ ∧ e₀.input = .channelSendCommand (.call k) uuid (.ok ())) ∧
      result = match r.status with
        | .ok => .ok r.payload
        | .error => .error (.reply r.payload) := by
  have hpossible := possible_of_run h e (List.mem_of_getElem? he)
  obtain ⟨r, hr⟩ := e.reply_of_resolves hpossible heffect hresolves
  obtain ⟨c, fresh, hbefore, heffects⟩ := e.effects_of_reply hpossible hr
  rw [heffects] at heffect
  rcases c.handleReply_cases r fresh with ⟨join, hj, hh⟩ | ⟨hj, tx', hc, hh⟩ | ⟨hj, hc, hh⟩ <;>
    rw [hh] at heffect
  · obtain ⟨result', hr', _⟩ := (c.removeJoin r.key).2.finishJoin_effects r join fresh
    rw [hr'] at heffect
    cases List.mem_singleton.mp heffect
  · cases List.mem_singleton.mp heffect
    have hwritten := History.always_iff_getElem?.mp (requestsWritten_invariant.always h) n
      (List.getElem?_eq_some_iff.mp he).1 e he c hbefore
    obtain ⟨i, k, uuid, hkey, htx, href, hi⟩ := hwritten.call hc
    refine ⟨i, k, uuid, r, htx, hi.exchange he hr, ?_, heffects.trans (by rw [hh]),
      written_of_take hi, rfl⟩
    simp only [callMessage, Message.id?, Option.map_some, Reply.id, href, ← hkey]
    rfl
  · cases heffect

/-- A join that is answered with a reply: its frame was written, and the reply is to a frame of its
channel. -/
theorem exchange_of_join (h : Run (machine strategy) ok World.init ls w) {n : Nat}
    {result : Except JoinError JoinedChannelReceivers} (he : (w.trace)[n]? = some e)
    (heffect : .joinedTx tx result ∈ e.effects)
    (hresolves : (Effect.joinedTx tx result).resolves? = some (.join tx)) :
    ∃ i join uuid r, join.joinedTx = tx ∧ Exchange w.trace i n (joinMessage join uuid) r ∧
      join.key = r.key ∧
      (∃ e₀, (w.trace)[i]? = some e₀ ∧
        e₀.input = .channelStateCommand (.join join) uuid (.ok ())) ∧
      ((r.status = .ok ∧ ∃ receivers, result = .ok receivers ∧ receivers.payload = r.payload) ∨
        (r.status = .error ∧ result = .error (.rejected r.payload))) := by
  have hpossible := possible_of_run h e (List.mem_of_getElem? he)
  obtain ⟨r, hr⟩ := e.reply_of_resolves hpossible heffect hresolves
  obtain ⟨c, fresh, hbefore, heffects⟩ := e.effects_of_reply hpossible hr
  rw [heffects] at heffect
  rcases c.handleReply_cases r fresh with ⟨join, hj, hh⟩ | ⟨hj, tx', hc, hh⟩ | ⟨hj, hc, hh⟩ <;>
    rw [hh] at heffect
  · have hwritten := History.always_iff_getElem?.mp (requestsWritten_invariant.always h) n
      (List.getElem?_eq_some_iff.mp he).1 e he c hbefore
    obtain ⟨hkey, i, uuid, hi⟩ := hwritten.join hj
    have hfinished : ∃ result', ((c.removeJoin r.key).2.finishJoin r join fresh).2 =
        [.joinedTx join.joinedTx result'] ∧
        ((r.status = .ok ∧ ∃ receivers, result' = .ok receivers ∧ receivers.payload = r.payload) ∨
          (r.status = .error ∧ result' = .error (.rejected r.payload))) := by
      unfold Connected.finishJoin
      cases r.status with
      | error => exact ⟨_, rfl, .inr ⟨rfl, rfl⟩⟩
      | ok => exact ⟨_, rfl, .inl ⟨rfl, _, rfl, rfl⟩⟩
    obtain ⟨result', hr', hresult⟩ := hfinished
    rw [hr'] at heffect
    cases List.mem_singleton.mp heffect
    exact ⟨i, join, uuid, r, rfl, hi.exchange he hr, hkey, written_of_take hi, hresult⟩
  · cases List.mem_singleton.mp heffect
  · cases heffect

/-! ## Errors -/

/-- The answer has no error that the error types know, but no handler gives. -/
def Effect.known : Effect → Bool
  | connectedTx _ (.error .shuttingDown) | connectedTx _ (.error (.shutdown _)) => false
  | leftTx _ (.error (.webSocketError _)) => true
  | leftTx _ (.error _) => false
  | replyTx _ (.error (.reply _)) | replyTx _ (.error (.webSocketError _))
    | replyTx _ (.error .socketDisconnected) => true
  | replyTx _ (.error _) => false
  | _ => true

theorem EffectCause.known {time : Instant} {state : State} {effect : Effect}
    (h : EffectCause time state input effect) (hconnect : ∀ tx result, effect ≠ .connectedTx tx result) :
    effect.known = true := by
  cases h with
  | quiet hq =>
      have hquiet := hq.quiet
      cases effect with
      | connectedTx tx result => exact absurd rfl (hconnect tx result)
      | _ => first | rfl | cases hquiet
  | replied r tx hd hjoin hcall => cases hstatus : r.status <;> rfl
  | _ => rfl

theorem known_connect {now : Instant} {state : State} {k : Connect} {outcome : ConnectOutcome}
    (hstate : state.serves = true) :
    ∀ effect ∈ (World.outcome (Iteration.ofPanics (connect strategy now state k outcome))).2,
      effect.known = true := by
  have fresh : ∀ effect ∈
      (World.outcome (Iteration.ofPanics (connect strategy now .neverConnected k outcome))).2,
      effect.known = true := by
    intro effect hmem
    cases outcome <;>
      simp [connect, socketConnect, Iteration.ofPanics, World.outcome] at hmem <;>
      rcases hmem with rfl | rfl <;> rfl
  cases state with
  | neverConnected => exact fresh
  | disconnected => exact fresh
  | connected c => simp [connect, Iteration.ofPanics, World.outcome, Effect.known]
  | waitingToReconnect sleep r => simp [connect, Iteration.ofPanics, World.outcome, Effect.known]
  | shuttingDown | shutDown => cases hstate

theorem select_known {now : Instant} {fresh : TxId} {state : State} {iteration : Iteration}
    (h : select strategy now fresh state input = some iteration) :
    ∀ effect ∈ (World.outcome iteration).2, effect.known = true := by
  intro effect hmem
  have hcause : EffectCause now state input effect := by
    cases state with
    | connected c => exact (select_connected h).cause hmem
    | _ => exact (select_unconnected (by simp) h).cause hmem
  by_cases hconnect : ∃ tx result, effect = .connectedTx tx result
  · obtain ⟨tx, result, rfl⟩ := hconnect
    cases hcause with
    | quiet hq =>
        obtain ⟨k, outcome, rfl, rfl⟩ := hq.answersConnect rfl
        simp only [select, Bool.and_eq_true] at h
        split at h
        · rename_i hserves
          cases h
          exact known_connect hserves.1 _ hmem
        · cases h
  · exact hcause.known fun tx result heq => hconnect ⟨tx, result, heq⟩

/-- No answer of the listener has an error that its error types know but no handler gives. -/
theorem known_of_run (h : Run (machine strategy) ok World.init ls w) :
    ∀ effect ∈ w.effects, effect.known = true := by
  refine h.invariant (I := fun w => ∀ effect ∈ w.effects, effect.known = true)
    (by simp [World.init, World.effects]) ?_
  intro w label w' ih _ hs
  cases label with
  | select input =>
      obtain ⟨state, iteration, _, hselect, rfl⟩ := step_select hs
      intro effect hmem
      rw [record_effects] at hmem
      rcases List.mem_append.mp hmem with hmem | hmem
      · exact ih effect hmem
      · exact select_known hselect effect hmem
  | _ =>
      cases step_cases hs
      exact ih

end PhoenixChannels.Socket
