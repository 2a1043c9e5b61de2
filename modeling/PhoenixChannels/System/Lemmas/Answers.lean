import PhoenixChannels.Socket.Lemmas.Exchanges
import PhoenixChannels.System.Lemmas.Purposes
import PhoenixChannels.System.Lemmas.Results

/-!
# What calls return

Where the result of each call comes from: an answer of a listener that was made for this call, its own
timeout, or the end of the listener.
-/

namespace PhoenixChannels

/-- The sender that an effect sends into, with what it is used for. -/
inductive Socket.Effect.Serves : Socket.Effect → TxId → Use → Prop
  | connectedTx {tx result} : Serves (.connectedTx tx result) tx .connect
  | disconnectedTx {tx} : Serves (.disconnectedTx tx) tx .disconnect
  | spawned {spawn c state sent} :
      Serves (.spawned spawn c state sent) spawn.sender (.spawn spawn.topic spawn.payload)
  | joinedTx {result} (join : Join) :
      Serves (.joinedTx join.joinedTx result) join.joinedTx (.command (.join join))
  | leftTx {result} (leave : Leave) :
      Serves (.leftTx leave.leftTx result) leave.leftTx (.command (.leave leave))
  | replyTx {result} (call : Call) :
      Serves (.replyTx call.replyTx result) call.replyTx
        (.channel call.joinReference (.call call.eventPayload))

namespace Socket

variable {strategy : Option (Nat → Duration)} {ok : World → Label → Prop} {ls : List Label}
variable {w : World} {e : Entry} {effect : Effect} {tx : TxId}

theorem mem_takenUses {x : TxId × Use} {trace : List Entry} (he : e ∈ trace)
    (hx : e.input.use? = some x) : x ∈ takenUses trace := List.mem_filterMap.mpr ⟨e, he, hx⟩

/-- A sender is answered as the command that brought it asks for. -/
theorem serves_of_run (h : Machine.Run (machine strategy) ok World.init ls w) (he : e ∈ w.trace)
    (hmem : effect ∈ e.effects) (htx : effect.tx? = some tx) :
    ∃ use, (tx, use) ∈ takenUses w.trace ∧ effect.Serves tx use := by
  obtain ⟨n, hn⟩ := List.mem_iff_getElem?.mp he
  have hwritten := History.always_iff_getElem?.mp (requestsWritten_invariant.always h) n
    (List.getElem?_eq_some_iff.mp hn).1 e hn
  have brought : ∀ use, e.input.use? = some (tx, use) → (tx, use) ∈ takenUses w.trace :=
    fun use huse => mem_takenUses he huse
  have joined : ∀ c key join, e.before = .connected c → c.pendingJoin key = some join →
      (join.joinedTx, Use.command (.join join)) ∈ takenUses w.trace := by
    intro c key join hbefore hj
    obtain ⟨_, i, uuid, hi⟩ := (hwritten c hbefore).join hj
    obtain ⟨e₀, he₀, hinput⟩ := written_of_take hi
    exact mem_takenUses (List.mem_of_getElem? he₀) (by rw [hinput]; rfl)
  have called : ∀ c key reference, e.before = .connected c →
      c.pendingCall key reference = some tx → ∃ k : Call, k.replyTx = tx ∧
        (tx, Use.channel k.joinReference (.call k.eventPayload)) ∈ takenUses w.trace := by
    intro c key reference hbefore hc
    obtain ⟨i, k, uuid, _, rfl, _, hi⟩ := (hwritten c hbefore).call hc
    obtain ⟨e₀, he₀, hinput⟩ := written_of_take hi
    exact ⟨k, rfl, mem_takenUses (List.mem_of_getElem? he₀) (by rw [hinput]; rfl)⟩
  have hcause := e.cause (possible_of_run h e he) hmem
  generalize hb : e.before = before at hcause
  generalize hinput : e.input = input at hcause brought
  cases hcause with
  | quiet hq =>
      have hquiet := hq.quiet
      cases effect with
      | connectedTx tx' result =>
          obtain ⟨connect, outcome, rfl, rfl⟩ := hq.answersConnect rfl
          cases htx
          exact ⟨_, brought _ rfl, .connectedTx⟩
      | _ => first | exact absurd hquiet Bool.false_ne_true | cases htx
  | spawned =>
      cases htx
      exact ⟨_, brought _ rfl, .spawned⟩
  | joinFinished r join result hd hjoin =>
      cases htx
      exact ⟨_, joined _ _ join hb hjoin, .joinedTx join⟩
  | timedOut index timer join htimer hdue hjoin =>
      cases htx
      exact ⟨_, joined _ _ join hb hjoin, .joinedTx join⟩
  | joinLost key join hjoin =>
      cases htx
      exact ⟨_, joined _ _ join hb hjoin, .joinedTx join⟩
  | replied r replyTx hd hjoin hcall =>
      cases htx
      obtain ⟨k, rfl, hk⟩ := called _ _ _ hb hcall
      exact ⟨_, hk, .replyTx k⟩
  | callLost key reference replyTx hcall =>
      cases htx
      obtain ⟨k, rfl, hk⟩ := called _ _ _ hb hcall
      exact ⟨_, hk, .replyTx k⟩
  | left l =>
      cases htx
      exact ⟨_, brought _ rfl, .leftTx l⟩
  | leaveFailed l =>
      cases htx
      exact ⟨_, brought _ rfl, .leftTx l⟩
  | callFailed k =>
      cases htx
      exact ⟨_, brought _ rfl, .replyTx k⟩
  | disconnected =>
      cases htx
      exact ⟨_, brought _ rfl, .disconnectedTx⟩
  | _ => cases htx

end Socket

namespace System

open Machine

/-- The answer of a listener to a call that waits on `tx`. -/
inductive Answer (s : System) (tx : TxId) : Request → ApiResult → Prop
  | connect {timeout result} : .connectedTx tx result ∈ s.visible →
      Answer s tx (.connect timeout) ((result.mapError .connect).map (fun _ => none))
  | disconnect : .disconnectedTx tx ∈ s.visible → Answer s tx .disconnect (.ok none)
  | channel {topic payload c state} : .spawned ⟨topic, payload, tx⟩ c state true ∈ s.visible →
      Answer s tx (.channel topic payload) (.ok none)
  | join {c timeout w result} : s.channels.lookup c = some w → .joinedTx tx result ∈ w.effects →
      Answer s tx (.channelJoin c timeout) ((result.mapError .join).map some)
  | leave {c w result} : s.channels.lookup c = some w → .leftTx tx result ∈ w.effects →
      Answer s tx (.channelLeave c) ((result.mapError .leave).map (fun _ => none))
  | call {c eventPayload timeout result} : .replyTx tx result ∈ s.visible →
      Answer s tx (.channelCall c eventPayload timeout) ((result.mapError .call).map some)

/-- How a call of a user has come to its result. -/
inductive Outcome (past : List (System × Label)) (s : System) (i : Nat) (request : Request) :
    ApiResult → Prop
  | answered {tx result} : (tx, .request i request) ∈ makings past → Answer s tx request result →
      Outcome past s i request result
  | cast {c eventPayload} : request = .channelCast c eventPayload →
      Outcome past s i request (.ok none)
  | timeout : request.timeout?.isSome = true → Outcome past s i request (.error .timeout)
  | shutdown : request.isShutdown = true → Outcome past s i request (.ok none)
  | socketEnded {error} : request.channel? = none →
      Outcome past s i request (.error (.socketShutdown error))
  | channelEnded {error} : request.channel?.isSome = true →
      Outcome past s i request (.error (.channelShutdown error))

variable {strategy : Option (Nat → Duration)} {s s' : System} {label : Label}
variable {ok : System → Label → Prop} {ls : List Label} {c : JoinReference} {tx : TxId}
variable {past : List (System × Label)} {i : Nat} {op : Operation} {request : Request}
variable {result : ApiResult}

theorem result_eq_sent (h : s.result tx = .sent result) :
    (∃ effect ∈ s.visible, effect.result? tx = some result) ∨
      ∃ c w, s.channels.lookup c = some w ∧ ∃ effect ∈ w.effects, effect.result? tx = some result := by
  have hsome : (s.visible.findSome? (Socket.Effect.result? tx)).or
      ((Dict.values s.channels).findSome? fun w =>
        w.effects.findSome? (Channel.Effect.result? tx)) = some result := by
    unfold System.result oneshot at h
    split at h
    · cases h
      assumption
    · split at h <;> cases h
  rcases Option.or_eq_some_iff.mp hsome with hsocket | ⟨_, hchannel⟩
  · obtain ⟨effect, hmem, heffect⟩ := List.exists_of_findSome?_eq_some hsocket
    exact .inl ⟨effect, hmem, heffect⟩
  · obtain ⟨w, hw, hchannel⟩ := List.exists_of_findSome?_eq_some hchannel
    obtain ⟨effect, hmem, heffect⟩ := List.exists_of_findSome?_eq_some hchannel
    obtain ⟨c, hc⟩ := Dict.mem_values.mp hw
    exact .inr ⟨c, w, hc, effect, hmem, heffect⟩

theorem answer_of_run (h : Run (machine strategy) ok init ls s)
    (huse : s.Uses tx (.result i request)) (hresult : s.result tx = .sent result) :
    Answer s tx request result := by
  rcases result_eq_sent hresult with ⟨effect, hmem, heffect⟩ | ⟨c, w, hw, effect, hmem, heffect⟩
  · obtain ⟨ks, hks⟩ := socket_run h
    obtain ⟨e, he, heffects⟩ := List.mem_flatMap.mp (List.mem_of_mem_take hmem)
    obtain ⟨use, htaken, hserves⟩ := Socket.serves_of_run hks he heffects
      (Socket.Effect.tx?_of_result? heffect)
    obtain ⟨purpose, hsuits, hsuits'⟩ := suits_of_run h huse (.taken htaken)
    cases hsuits
    cases hserves with
    | connectedTx =>
        cases hsuits'
        simp only [Socket.Effect.result?, ↓reduceIte, Option.some.injEq] at heffect
        exact heffect ▸ .connect hmem
    | disconnectedTx =>
        cases hsuits'
        simp only [Socket.Effect.result?, ↓reduceIte, Option.some.injEq] at heffect
        exact heffect ▸ .disconnect hmem
    | @spawned spawn c state sent =>
        cases hsuits'
        cases sent with
        | false => simp [Socket.Effect.result?] at heffect
        | true =>
            simp only [Socket.Effect.result?, decide_true, Bool.and_true, ↓reduceIte,
              Option.some.injEq] at heffect
            exact heffect ▸ .channel hmem
    | replyTx call =>
        cases hsuits'
        simp only [Socket.Effect.result?, ↓reduceIte, Option.some.injEq] at heffect
        exact heffect ▸ .call hmem
    | joinedTx join | leftTx leave => cases hsuits'
  · have answers : ∀ use, effect.use? = some (tx, use) → s.Uses tx (.channel c use) := by
      intro use heffect
      exact .channel hw (Channel.World.mem_uses.mpr
        (.inr (.inr (List.mem_filterMap.mpr ⟨effect, hmem, heffect⟩))))
    cases effect with
    | joinedTx tx' joinResult =>
        simp only [Channel.Effect.result?] at heffect
        split at heffect <;> cases heffect
        subst tx'
        obtain ⟨purpose, hsuits, hsuits'⟩ := suits_of_run h huse (answers _ rfl)
        cases hsuits
        cases hsuits'
        exact .join hw hmem
    | leftTx tx' leaveResult =>
        simp only [Channel.Effect.result?] at heffect
        split at heffect <;> cases heffect
        subst tx'
        obtain ⟨purpose, hsuits, hsuits'⟩ := suits_of_run h huse (answers _ rfl)
        cases hsuits
        cases hsuits'
        exact .leave hw hmem
    | event | statusError => cases heffect

/-! ## Along a run -/

theorem Answer.mono (hrun : Run (machine strategy) ok init ls s)
    (h : SystemStep strategy s label s') (ha : Answer s tx request result) :
    Answer s' tx request result := by
  have hvisible := (visible_grows hrun h).subset
  have grown : ∀ {c : JoinReference} {w : Channel.World} {effect : Channel.Effect},
      s.channels.lookup c = some w → effect ∈ w.effects →
      ∃ w', s'.channels.lookup c = some w' ∧ effect ∈ w'.effects := by
    intro c w effect hw hmem
    obtain ⟨w', hw', hnext⟩ := h.channel_next hrun hw
    refine ⟨w', hw', ?_⟩
    rcases hnext with rfl | hstep
    · exact hmem
    · exact hstep.effects_grow.subset hmem
  cases ha with
  | connect hmem => exact .connect (hvisible hmem)
  | disconnect hmem => exact .disconnect (hvisible hmem)
  | channel hmem => exact .channel (hvisible hmem)
  | join hw hmem =>
      obtain ⟨w', hw', hmem'⟩ := grown hw hmem
      exact .join hw' hmem'
  | leave hw hmem =>
      obtain ⟨w', hw', hmem'⟩ := grown hw hmem
      exact .leave hw' hmem'
  | call hmem => exact .call (hvisible hmem)

theorem Outcome.mono (hrun : Run (machine strategy) ok init ls s)
    (h : SystemStep strategy s label s') (ho : Outcome past s i request result) :
    Outcome (past ++ [(s, label)]) s' i request result := by
  cases ho with
  | answered hmade ha =>
      exact .answered (makings_snoc ▸ List.mem_append_left _ hmade) (ha.mono hrun h)
  | cast hrequest => exact .cast hrequest
  | timeout htimeout => exact .timeout htimeout
  | shutdown hshutdown => exact .shutdown hshutdown
  | socketEnded hsocket => exact .socketEnded hsocket
  | channelEnded hchannel => exact .channelEnded hchannel

theorem getElem?_setPhase {t : System} {j : Nat} {op' : Operation} {phase : Phase}
    (h : (t.setPhase i op phase).operations[j]? = some op') :
    (j = i ∧ op' = { op with phase }) ∨ t.operations[j]? = some op' := by
  simp only [setPhase, List.getElem?_set] at h
  split at h
  · split at h
    · cases h
      exact .inl ⟨Eq.symm ‹_›, rfl⟩
    · cases h
  · exact .inr h

/-- The phases that a call goes on to. -/
inductive NextPhase (s : System) (op : Operation) : Phase → Prop
  | waiting {tx deadline} : (deadline.isSome = true → op.request.timeout?.isSome = true) →
      NextPhase s op (.waiting tx deadline)
  | cast {c eventPayload} : op.request = .channelCast c eventPayload →
      NextPhase s op (.returned (.ok none))
  | own {phase} : OwnPhase s op phase → NextPhase s op phase
  | expired {tx deadline} : op.phase = .waiting tx (some deadline) →
      NextPhase s op (.returned (.error .timeout))

/-- Where a call is after a step: where it was, at its beginning, or one phase further. -/
inductive CallChange (s : System) (j : Nat) (op' : Operation) : Prop
  | kept : s.operations[j]? = some op' → CallChange s j op'
  | begun : op'.phase = .sending → CallChange s j op'
  | next {op : Operation} : s.operations[j]? = some op → op'.request = op.request →
      NextPhase s op op'.phase → CallChange s j op'

theorem CallChange.of_setPhase {t : System} {j : Nat} {op' : Operation} {phase : Phase}
    (hop : s.operations[i]? = some op) (ht : t.operations = s.operations)
    (hnext : NextPhase s op phase) (hop' : (t.setPhase i op phase).operations[j]? = some op') :
    CallChange s j op' := by
  rcases getElem?_setPhase hop' with ⟨rfl, rfl⟩ | hop'
  · exact .next hop rfl hnext
  · exact .kept (ht ▸ hop')

theorem AdvanceStep.callChange (h : AdvanceStep s i op s') (hop : s.operations[i]? = some op)
    {j : Nat} {op' : Operation} (hop' : s'.operations[j]? = some op') : CallChange s j op' := by
  cases h with
  | socketCommand hphase hsocket hrunning hcommand hsuits hdeadline =>
      exact .of_setPhase hop rfl (.waiting fun h => hdeadline ▸ h) hop'
  | stateCommand hphase hchannel hw hrunning hcommand hsuits hdeadline =>
      exact .of_setPhase (t := setChannel { s with fresh := s.fresh + 1 } _ _) hop rfl
        (.waiting fun h => hdeadline ▸ h) hop'
  | channelSpawn => exact .of_setPhase hop rfl (.waiting (by simp)) hop'
  | cast hphase hrequest =>
      exact .of_setPhase (t := setChannel { s with fresh := s.fresh + 1 } _ _) hop rfl
        (.cast hrequest) hop'
  | call hphase hrequest =>
      exact .of_setPhase (t := setChannel { s with fresh := s.fresh + 1 } _ _) hop rfl
        (.waiting fun _ => by simp [hrequest, Request.timeout?]) hop'
  | shutdown => exact .of_setPhase hop rfl (.own .closing) hop'
  | handle => exact .of_setPhase hop rfl (.own .joining) hop'
  | channel hw hown => exact .of_setPhase (t := s.setChannel _ _) hop rfl (.own hown) hop'
  | caller hown => exact .of_setPhase hop rfl (.own hown) hop'

theorem callChange_of_step (h : (machine strategy).step s label = some s') {j : Nat}
    {op' : Operation} (hop' : s'.operations[j]? = some op') : CallChange s j op' := by
  cases label with
  | advance i =>
      obtain ⟨op, hop, h⟩ := advance_cases h
      exact h.callChange hop hop'
  | expire i =>
      simp only [machine, step, expireStep] at h
      split at h
      · split at h
        · split at h <;> cases h
          exact .of_setPhase ‹_› rfl (.expired ‹_›) hop'
        · cases h
      · cases h
  | begin request =>
      have hoperations : s'.operations = s.operations ++ [⟨request, s.socket.now, .sending⟩] := by
        simp only [machine, step, beginStep] at h
        repeat' split at h
        all_goals cases h <;> rfl
      rw [hoperations, List.getElem?_append] at hop'
      split at hop'
      · exact .kept hop'
      · obtain rfl := List.mem_singleton.mp (List.mem_of_getElem? hop')
        exact .begun rfl
  | drop c =>
      have hoperations : s'.operations = s.operations := by
        simp only [machine, step, dropStep] at h
        repeat' split at h
        all_goals cases h <;> rfl
      exact .kept (hoperations ▸ hop')
  | _ => exact .kept ((step_cases h).operations rfl ▸ hop')

theorem taskResult_error {error : ApiError} (h : s.taskResult op = some (.ok (.error error))) :
    (op.request.channel? = none ∧ ∃ e, error = .socketShutdown e) ∨
      (op.request.channel?.isSome = true ∧ ∃ e, error = .channelShutdown e) := by
  unfold taskResult at h
  split at h
  · rename_i hsocket
    split at h
    · rename_i exit _
      cases exit <;> cases h
      exact .inl ⟨hsocket, _, rfl⟩
    · cases h
    · cases h
  · rename_i c hchannel
    have hsome : op.request.channel?.isSome = true := by simp [hchannel]
    split at h
    · split at h
      · rename_i exit _
        cases exit <;> cases h
        exact .inr ⟨hsome, _, rfl⟩
      · cases h
      · cases h
    · cases h

theorem OwnPhase.returned (hrun : Run (machine strategy) ok init ls s)
    (hop : s.operations[i]? = some op) (h : OwnPhase s op (.returned result)) :
    Outcome ((machine strategy).steps init ls) s i op.request result := by
  generalize hphase : Phase.returned result = phase at h
  cases h with
  | closing | joining => cases hphase
  | @answered tx deadline result' hwaiting hresult =>
      cases hphase
      have huse : s.Uses tx (.result i op.request) := .result hop hwaiting
      obtain ⟨purpose, hmade, hsuits⟩ := purpose_of_run hrun huse
      cases hsuits
      exact .answered hmade (answer_of_run hrun huse hresult)
  | socketJoined hsocket =>
      cases hphase
      exact .socketEnded hsocket
  | channelJoined hchannel =>
      cases hphase
      exact .channelEnded hchannel
  | @ended taskResult hended =>
      unfold afterShutdown at hphase
      split at hphase
      · split at hphase <;> cases hphase
        exact .shutdown ‹_›
      · rename_i error
        cases hphase
        rcases taskResult_error hended with ⟨hsocket, e, rfl⟩ | ⟨hchannel, e, rfl⟩
        · exact .socketEnded hsocket
        · exact .channelEnded hchannel
      · cases hphase

/-- Only a call that came with a timeout has a deadline. -/
theorem deadline_of_run (h : Run (machine strategy) ok init ls s)
    (hop : s.operations[i]? = some op) {deadline : Instant}
    (hphase : op.phase = .waiting tx (some deadline)) : op.request.timeout?.isSome = true := by
  refine h.invariant (I := fun s => ∀ i op, s.operations[i]? = some op → ∀ tx deadline,
    op.phase = .waiting tx (some deadline) → op.request.timeout?.isSome = true)
    ?_ ?_ i op hop tx deadline hphase
  · intro i op hop
    cases hop
  intro s label s' ih _ hs j op' hop' tx deadline hphase
  cases callChange_of_step hs hop' with
  | kept hop => exact ih j op' hop tx deadline hphase
  | begun hsending => cases hsending.symm.trans hphase
  | next hop hrequest hnext =>
      rw [hrequest]
      rw [hphase] at hnext
      cases hnext with
      | waiting htimeout => exact htimeout rfl
      | own hown => exact absurd rfl (hown.ne_waiting _ _)

/-- Every result of a call has one of the known origins. -/
theorem outcome_of_run (h : Run (machine strategy) ok init ls s)
    (hop : s.operations[i]? = some op) (hphase : op.phase = .returned result) :
    Outcome ((machine strategy).steps init ls) s i op.request result := by
  induction h generalizing i op result with
  | nil => cases hop
  | snoc hrun hok hs ih =>
      rw [hrun.steps_snoc]
      have hstep := step_cases hs
      cases callChange_of_step hs hop with
      | kept hop => exact (ih hop hphase).mono hrun hstep
      | begun hsending => cases hsending.symm.trans hphase
      | next hop hrequest hnext =>
          rw [hrequest]
          rw [hphase] at hnext
          cases hnext with
          | cast hcast => exact .cast hcast
          | own hown => exact (hown.returned hrun hop).mono hrun hstep
          | expired hwaiting => exact .timeout (deadline_of_run hrun hop hwaiting)

end System

end PhoenixChannels
