import PhoenixChannels.System.Lemmas.Answers

/-!
# The moment at which a call takes effect

Whoever is told that a socket or a channel has become what it was asked to become is told of a moment
at which it was so. The moment lies within the call.
-/

namespace PhoenixChannels

/-- The calls that ask a socket or a channel to become something. -/
def Request.changes : Request → Bool
  | connect _ | disconnect | shutdown | channelJoin _ _ | channelLeave _ | channelShutdown _ => true
  | channel _ _ | channelCast _ _ | channelCall _ _ _ => false

/-- The state a channel listener is in, where its handler is not suspended. -/
def Channel.Task.state? : Task → Option State
  | selecting state _ _ | publishing state => some state
  | calling _ | exited _ | panicked _ => none

namespace System

open Machine

/-- What the success of a call means for the socket or the channel. -/
inductive Established (s : System) : Request → Prop
  | connect {timeout} : s.socket.task.isConnected = true → Established s (.connect timeout)
  | disconnect : s.socket.task.isRunning = true → s.socket.task.isConnected = false →
      Established s .disconnect
  | shutdown : s.socket.task = .exited (.ok ()) → Established s .shutdown
  | channelJoin {c timeout w joined} : s.channels.lookup c = some w →
      w.task.state? = some (.joined joined) → Established s (.channelJoin c timeout)
  | channelLeave {c w state} : s.channels.lookup c = some w → w.task.state? = some state →
      state.status.isUnjoined = true → Established s (.channelLeave c)
  | channelShutdown {c w} : s.channels.lookup c = some w → w.task = .exited (.ok ()) →
      Established s (.channelShutdown c)

/-- At some moment of the run the call was under way, and what its success means was so. -/
def TakesEffect (strategy : Option (Nat → Duration)) (ls : List Label) (i : Nat)
    (request : Request) : Prop :=
  ∃ before after t op, ls = before ++ after ∧ Run (machine strategy) Free init before t ∧
    t.operations[i]? = some op ∧ op.request = request ∧ op.phase.isOver = false ∧
      t.Established request

variable {strategy : Option (Nat → Duration)} {ok : System → Label → Prop} {ls : List Label}
variable {s s' t : System} {label : Label} {i : Nat} {op : Operation} {tx : TxId} {request : Request}
variable {c : JoinReference}

/-! ## What begins with a success -/

theorem SocketPending.established (h : SocketPending request s) : s.Established request := by
  obtain ⟨state, htask, hshows⟩ := h
  cases request with
  | connect =>
      apply Established.connect
      cases state with
      | connected => rw [htask]; rfl
      | _ => cases hshows
  | disconnect =>
      apply Established.disconnect
      · rw [htask]; rfl
      · cases state with
        | connected => cases hshows
        | _ => rw [htask]; rfl
  | _ => cases hshows

theorem ChannelPending.established (hchannel : request.channel? = some c)
    (h : ChannelPending request c s) : s.Established request := by
  obtain ⟨w, state, hw, htask, hshows⟩ := h
  have hstate : w.task.state? = some state := by rw [htask]; rfl
  cases request with
  | channelJoin =>
      cases hchannel
      cases state with
      | joined joined => exact .channelJoin hw hstate
      | _ => cases hshows
  | channelLeave =>
      cases hchannel
      exact .channelLeave hw hstate hshows
  | _ => cases hshows

/-- Who is told of success waits on a sender that a call has made. -/
theorem made_of_succeeded (h : Run (machine strategy) ok init ls s)
    (hsucceeded : s.succeeded tx request = true) :
    ∃ j asked, (tx, .request j asked) ∈ makings ((machine strategy).steps init ls) := by
  unfold succeeded at hsucceeded
  split at hsucceeded
  · obtain ⟨effect, hmem, hsucceeds⟩ := List.any_eq_true.mp hsucceeded
    obtain ⟨ks, hks⟩ := socket_run h
    obtain ⟨e, he, heffects⟩ := List.mem_flatMap.mp (List.mem_of_mem_take hmem)
    have htx : effect.tx? = some tx := by
      rcases Socket.succeeds_cases hsucceeds with ⟨_, rfl, rfl⟩ | ⟨rfl, rfl⟩ <;> rfl
    obtain ⟨use, htaken, hserves⟩ := Socket.serves_of_run hks he heffects htx
    obtain ⟨purpose, hmade, hsuits⟩ := purpose_of_run h (.taken htaken)
    rcases Socket.succeeds_cases hsucceeds with ⟨_, rfl, rfl⟩ | ⟨rfl, rfl⟩ <;>
      · cases hserves
        cases hsuits
        exact ⟨_, _, hmade⟩
  · rename_i c _
    obtain ⟨w, hw, hany⟩ := (Option.any_eq_true _ _).mp hsucceeded
    obtain ⟨effect, hmem, hsucceeds⟩ := List.any_eq_true.mp hany
    have answers : ∀ use, effect.use? = some (tx, use) → s.Uses tx (.channel c use) := by
      intro use heffect
      exact .channel hw (Channel.World.mem_uses.mpr
        (.inr (.inr (List.mem_filterMap.mpr ⟨effect, hmem, heffect⟩))))
    rcases Channel.succeeds_cases hsucceeds with ⟨_, _, _, rfl, rfl⟩ | ⟨_, rfl, rfl⟩ <;>
      · obtain ⟨purpose, hmade, hsuits⟩ := purpose_of_run h (answers _ rfl)
        cases hsuits
        exact ⟨_, _, hmade⟩

/-! ## Calls -/

/-- A call goes on for what it was made. -/
theorem operation_of_step (h : (machine strategy).step s label = some s')
    (hop : s.operations[i]? = some op) :
    ∃ op', s'.operations[i]? = some op' ∧ op'.request = op.request ∧
      (op.phase.isOver = true → op' = op) := by
  rcases (operations_cases h).at hop with ⟨hop', _⟩ | ⟨phase, hop', hphase⟩
  · exact ⟨op, hop', rfl, fun _ => rfl⟩
  · refine ⟨_, hop', rfl, fun hover => ?_⟩
    cases hphase with
    | sent hold | cast hold | shutdown hold | ended hold | answered hold | dropped hold | taken hold
      | alreadyJoined hold | joined hold | expired hold =>
        rw [hold] at hover
        cases hover

theorem operation_of_run (h : Run (machine strategy) ok t ls s) (hop : t.operations[i]? = some op) :
    ∃ op', s.operations[i]? = some op' ∧ op'.request = op.request ∧
      (op.phase.isOver = true → op' = op) := by
  induction h with
  | nil => exact ⟨op, hop, rfl, fun _ => rfl⟩
  | snoc _ _ hs ih =>
      obtain ⟨op₁, hop₁, hrequest₁, hover₁⟩ := ih
      obtain ⟨op₂, hop₂, hrequest₂, hover₂⟩ := operation_of_step hs hop₁
      refine ⟨op₂, hop₂, hrequest₂.trans hrequest₁, fun hover => ?_⟩
      obtain rfl := hover₁ hover
      exact hover₂ hover

/-- A call that has made a sender is there. -/
theorem operation_of_making (h : Run (machine strategy) ok init ls s)
    (hmade : (tx, .request i request) ∈ makings ((machine strategy).steps init ls)) :
    ∃ op, s.operations[i]? = some op ∧ op.request = request := by
  refine h.history (I := fun past s => ∀ tx i request, (tx, .request i request) ∈ makings past →
    ∃ op, s.operations[i]? = some op ∧ op.request = request) ?_ ?_ tx i request hmade
  · intro tx i request hmade
    cases hmade
  intro ls past s label s' _ ih _ hs tx i request hmade
  rw [makings_snoc] at hmade
  have hop : ∃ op, s.operations[i]? = some op ∧ op.request = request := by
    rcases List.mem_append.mp hmade with hold | hnew
    · exact ih tx i request hold
    · have hnew : s.made label = some (tx, .request i request) := by simpa using hnew
      cases label with
      | advance j =>
          simp only [made] at hnew
          split at hnew
          · split at hnew
            · split at hnew <;> cases hnew
              exact ⟨_, ‹_›, rfl⟩
            · cases hnew
          · cases hnew
      | forward c =>
          simp only [made] at hnew
          repeat' split at hnew
          all_goals cases hnew
      | _ => cases hnew
  obtain ⟨op, hop, hrequest⟩ := hop
  obtain ⟨op', hop', hrequest', _⟩ := operation_of_step hs hop
  exact ⟨op', hop', hrequest'.trans hrequest⟩

/-! ## Along a run -/

theorem TakesEffect.append (h : TakesEffect strategy ls i request) (more : List Label) :
    TakesEffect strategy (ls ++ more) i request := by
  obtain ⟨before, after, t, op, rfl, ht, hop, hrequest, hover, hestablished⟩ := h
  exact ⟨before, after ++ more, t, op, by simp, ht, hop, hrequest, hover, hestablished⟩

theorem not_succeeded_init : ¬ init.succeeded tx request = true := by
  cases hrequest : request.channel? with
  | none =>
      have h : Announces (machine none) Free init (fun s => s.succeeded tx request = true) _ _ _ :=
        socket_announces hrequest
      exact h.fresh
  | some c =>
      have h : Announces (machine none) Free init (fun s => s.succeeded tx request = true) _ _ _ :=
        channel_announces hrequest
      exact h.fresh

/-- What a caller is told was so when he was first told. -/
theorem takesEffect_of_succeeded (h : Run (machine strategy) ok init ls s)
    (hop : s.operations[i]? = some op) (hover : op.phase.isOver = false)
    (hmade : (tx, .request i op.request) ∈ makings ((machine strategy).steps init ls))
    (hsucceeded : s.succeeded tx op.request = true) : TakesEffect strategy ls i op.request := by
  obtain ⟨before, l, after, t, t', rfl, ht, hs, hno, hyes, ht', hafter⟩ :=
    h.exists_begins (P := fun s => s.succeeded tx op.request = true) not_succeeded_init hsucceeded
  have hestablished : t'.Established op.request := by
    cases hchannel : op.request.channel? with
    | none => exact ((socket_announces hchannel).begins _ _ _ _ ht hs hno hyes).established
    | some c =>
        exact ((channel_announces hchannel).begins _ _ _ _ ht hs hno hyes).established hchannel
  obtain ⟨j, asked, hmade'⟩ := made_of_succeeded ht' hyes
  obtain ⟨op', hop', hrequest'⟩ := operation_of_making ht' hmade'
  -- the sender was made for this call and no other
  have hsteps : (machine strategy).steps init (before ++ l :: after) =
      (machine strategy).steps init (before ++ [l]) ++ (machine strategy).steps t' after := by
    rw [← ht'.steps_append, List.append_assoc]
    rfl
  have hsame : Purpose.request j asked = .request i op.request := by
    refine (made_of_run h).unique ?_ hmade
    rw [hsteps, makings, List.filterMap_append]
    exact List.mem_append_left _ hmade'
  cases hsame
  obtain ⟨op₂, hop₂, _, hlast⟩ := operation_of_run hafter hop'
  cases hop₂.symm.trans hop
  refine ⟨before ++ [l], after, t', op', by simp, ht'.free, hop', hrequest', ?_, hestablished⟩
  cases hphase : op'.phase.isOver with
  | false => rfl
  | true =>
      rw [hlast hphase, hphase] at hover
      cases hover

/-- An answer that tells of success is a success. -/
theorem Answer.succeeded {payload : Option Payload} (h : Answer s tx request (.ok payload))
    (hchanges : request.changes = true) : s.succeeded tx request = true := by
  generalize hresult : (.ok payload : ApiResult) = result at h
  cases h with
  | @connect timeout result hmem =>
      cases result with
      | error => cases hresult
      | ok => exact List.any_eq_true.mpr ⟨_, hmem, by simp [Socket.Effect.succeeds]⟩
  | disconnect hmem => exact List.any_eq_true.mpr ⟨_, hmem, by simp [Socket.Effect.succeeds]⟩
  | @join c timeout w result hw hmem =>
      cases result with
      | error => cases hresult
      | ok =>
          simp only [System.succeeded, Request.channel?, hw, Option.any_some]
          exact List.any_eq_true.mpr ⟨_, hmem, by simp [Channel.Effect.succeeds]⟩
  | @leave c w result hw hmem =>
      cases result with
      | error => cases hresult
      | ok =>
          simp only [System.succeeded, Request.channel?, hw, Option.any_some]
          exact List.any_eq_true.mpr ⟨_, hmem, by simp [Channel.Effect.succeeds]⟩
  | channel | call => cases hchanges

/-- A listener that was awaited has ended. -/
theorem established_of_ended (hended : s.taskResult op = some (.ok (.ok ())))
    (hshutdown : op.request.isShutdown = true) : s.Established op.request := by
  unfold taskResult at hended
  cases hrequest : op.request with
  | shutdown =>
      simp only [hrequest, Request.channel?] at hended
      split at hended
      · rename_i result htask
        cases result <;> cases hended
        exact .shutdown htask
      · cases hended
      · cases hended
  | channelShutdown c =>
      simp only [hrequest, Request.channel?] at hended
      split at hended
      · rename_i w hw
        split at hended
        · rename_i result htask
          cases result <;> cases hended
          exact .channelShutdown hw htask
        · cases hended
        · cases hended
      · cases hended
  | _ =>
      rw [hrequest] at hshutdown
      cases hshutdown

theorem OwnPhase.takesEffect {payload : Option Payload} (h : OwnPhase s op (.returned (.ok payload)))
    (hrun : Run (machine strategy) ok init ls s) (hop : s.operations[i]? = some op)
    (hover : op.phase.isOver = false) (hchanges : op.request.changes = true) :
    TakesEffect strategy ls i op.request := by
  generalize hphase : Phase.returned (.ok payload) = phase at h
  cases h with
  | closing | joining => cases hphase
  | answered hwaiting hresult =>
      cases hphase
      have huse : s.Uses _ (.result i op.request) := .result hop hwaiting
      obtain ⟨purpose, hmade, hsuits⟩ := purpose_of_run hrun huse
      cases hsuits
      have hsucceeded := (answer_of_run hrun huse hresult).succeeded hchanges
      exact takesEffect_of_succeeded hrun hop hover hmade hsucceeded
  | socketJoined | channelJoined => cases hphase
  | ended hended =>
      unfold afterShutdown at hphase
      split at hphase
      · split at hphase <;> cases hphase
        have hestablished := established_of_ended hended ‹_›
        exact ⟨ls, [], s, op, by simp, hrun.free, hop, rfl, hover, hestablished⟩
      · cases hphase
      · cases hphase

theorem takesEffect_of_run {payload : Option Payload} (h : Run (machine strategy) ok init ls s)
    (hop : s.operations[i]? = some op) (hphase : op.phase = .returned (.ok payload))
    (hchanges : op.request.changes = true) : TakesEffect strategy ls i op.request := by
  induction h generalizing i op with
  | nil => cases hop
  | @snoc ls s label s' hrun _ hs ih =>
      apply TakesEffect.append
      cases callChange_of_step hs hop with
      | kept hop => exact ih hop hphase hchanges
      | begun hsending => cases hsending.symm.trans hphase
      | @next op₀ hop₀ hrequest hnext =>
          obtain ⟨op₁, hop₁, _, hlast⟩ := operation_of_step hs hop₀
          cases hop₁.symm.trans hop
          cases hover : op₀.phase.isOver with
          | true => exact hlast hover ▸ ih hop₀ (hlast hover ▸ hphase) (hlast hover ▸ hchanges)
          | false =>
              rw [hrequest] at hchanges ⊢
              rw [hphase] at hnext
              cases hnext with
              | cast hcast =>
                  rw [hcast] at hchanges
                  cases hchanges
              | own hown => exact hown.takesEffect hrun hop₀ hover hchanges

end System

end PhoenixChannels
