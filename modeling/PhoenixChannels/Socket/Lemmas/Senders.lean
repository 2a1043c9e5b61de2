import PhoenixChannels.Socket.Lemmas.Replies
import PhoenixChannels.System.State

/-!
# The senders of the socket listener

The socket listener answers no caller but the one whose command it has just taken and those whose
senders its connection holds.
-/

namespace PhoenixChannels.Socket

/-- The sender that a command brings. -/
def Input.tx? : Input → Option TxId
  | channelSpawn spawn _ _ => some spawn.sender
  | stateCommand command _ => command.tx?
  | channelStateCommand command _ _ => some command.tx
  | channelSendCommand command _ _ => command.tx?
  | _ => none

variable {now : Instant} {fresh : TxId} {c c' : Connected} {state : State} {input : Input}
variable {iteration : Iteration} {effect : Effect} {tx : TxId} {w w' : World}
variable {strategy : Option (Nat → Duration)} {label : Label}

theorem mem_heldTxs : tx ∈ c.heldTxs ↔
    (∃ key join, c.pendingJoin key = some join ∧ join.joinedTx = tx) ∨
      ∃ key reference, c.pendingCall key reference = some tx := by
  rw [Connected.heldTxs, List.mem_append, mem_pendingTxs, NestedMap₃.mem_values]
  refine or_congr Iff.rfl ?_
  constructor
  · rintro ⟨topic, ref, reference, hfind⟩
    exact ⟨⟨topic, ref⟩, reference, hfind⟩
  · rintro ⟨key, reference, hfind⟩
    exact ⟨key.topic, key.joinReference, reference, hfind⟩

theorem heldTxs_of_pendingJoin {key : JoinKey} {join : Join} (h : c.pendingJoin key = some join) :
    join.joinedTx ∈ c.heldTxs :=
  mem_heldTxs.mpr (.inl ⟨key, join, h, rfl⟩)

theorem heldTxs_of_pendingCall {key : JoinKey} {reference : Reference}
    (h : c.pendingCall key reference = some tx) : tx ∈ c.heldTxs :=
  mem_heldTxs.mpr (.inr ⟨key, reference, h⟩)

theorem heldTxs_subset (hjoins : ∀ key join, c'.pendingJoin key = some join →
      c.pendingJoin key = some join)
    (hcalls : ∀ key reference tx, c'.pendingCall key reference = some tx →
      c.pendingCall key reference = some tx) : c'.heldTxs ⊆ c.heldTxs := by
  intro tx htx
  rcases mem_heldTxs.mp htx with ⟨key, join, hjoin, rfl⟩ | ⟨key, reference, hcall⟩
  · exact heldTxs_of_pendingJoin (hjoins key join hjoin)
  · exact heldTxs_of_pendingCall (hcalls key reference tx hcall)

@[simp] theorem heldTxs_new {timeout : Duration} : (Connected.new now timeout).heldTxs = [] := rfl

/-! ## What is answered -/

/-- An effect that answers a caller has the sender of the command or one of the connection. -/
theorem EffectCause.held (h : EffectCause now state input effect) (htx : effect.tx? = some tx) :
    input.tx? = some tx ∨ ∃ c, state = .connected c ∧ tx ∈ c.heldTxs := by
  cases h with
  | quiet hq =>
      have hquiet := hq.quiet
      cases effect with
      | connectedTx tx' result =>
          obtain ⟨connect, outcome, rfl, rfl⟩ := hq.answersConnect rfl
          exact .inl htx
      | _ => first | exact absurd hquiet Bool.false_ne_true | cases htx
  | joinFinished r join result hd hjoin =>
      cases htx
      exact .inr ⟨_, rfl, heldTxs_of_pendingJoin hjoin⟩
  | replied r replyTx hd hjoin hcall =>
      cases htx
      exact .inr ⟨_, rfl, heldTxs_of_pendingCall hcall⟩
  | timedOut index timer join htimer hdue hjoin =>
      cases htx
      exact .inr ⟨_, rfl, heldTxs_of_pendingJoin hjoin⟩
  | joinLost key join hjoin =>
      cases htx
      exact .inr ⟨_, rfl, heldTxs_of_pendingJoin hjoin⟩
  | callLost key reference replyTx hcall =>
      cases htx
      exact .inr ⟨_, rfl, heldTxs_of_pendingCall hcall⟩
  | spawned | left | leaveFailed | callFailed | disconnected => exact .inl htx
  | _ => cases htx

/-! ## What is held -/

theorem removeJoin_heldTxs {key : JoinKey} : (c.removeJoin key).2.heldTxs ⊆ c.heldTxs := by
  refine heldTxs_subset ?_ (by simp)
  intro key' join hjoin
  rw [Connected.removeJoin_pendingJoin] at hjoin
  split at hjoin
  · cases hjoin
  · exact hjoin

theorem handleReply_heldTxs {r : Reply} : (c.handleReply r fresh).1.heldTxs ⊆ c.heldTxs := by
  refine heldTxs_subset ?_ ?_
  · intro key join hjoin
    rw [Connected.handleReply_pendingJoin] at hjoin
    split at hjoin
    · cases hjoin
    · exact hjoin
  · intro key reference tx hcall
    rw [Connected.handleReply_pendingCall] at hcall
    split at hcall
    · cases hcall
    · exact hcall

theorem ConnectedIteration.heldTxs (h : ConnectedIteration now fresh c input iteration)
    (hc' : (World.outcome iteration).1.connection = some c') (htx : tx ∈ c'.heldTxs) :
    input.tx? = some tx ∨ tx ∈ c.heldTxs := by
  cases h with
  | quiet | spawned | push | cast =>
      cases hc'
      exact .inr htx
  | reply r =>
      cases hc'
      exact .inr (handleReply_heldTxs htx)
  | broadcast b =>
      obtain ⟨map, hmap⟩ := c.handleBroadcast_cases b
      cases hc'
      rw [hmap] at htx
      exact .inr htx
  | join j uuid =>
      cases hc'
      rcases mem_heldTxs.mp htx with ⟨key, join, hjoin, rfl⟩ | ⟨key, reference, hcall⟩
      · rw [Connected.joined_pendingJoin] at hjoin
        split at hjoin
        · cases hjoin
          exact .inl rfl
        · exact .inr (heldTxs_of_pendingJoin hjoin)
      · exact .inr (heldTxs_of_pendingCall (c := c) hcall)
  | leave l uuid =>
      cases hc'
      exact .inr htx
  | call k uuid =>
      cases hc'
      rcases mem_heldTxs.mp htx with ⟨key, join, hjoin, rfl⟩ | ⟨key, reference, hcall⟩
      · exact .inr (heldTxs_of_pendingJoin (c := c) hjoin)
      · rw [Connected.called_pendingCall] at hcall
        split at hcall
        · cases hcall
          exact .inl rfl
        · exact .inr (heldTxs_of_pendingCall hcall)
  | timedOut index timer =>
      simp only [World.outcome, Connected.joinTimedOut_fst] at hc'
      cases hc'
      exact .inr (removeJoin_heldTxs htx)
  | lost d hs hstate =>
      subst hstate
      cases d <;> cases hc'
  | exit | panic => cases hc'

theorem UnconnectedIteration.heldTxs (h : UnconnectedIteration now state input iteration)
    (hs : ∀ c, state ≠ .connected c) (hc' : (World.outcome iteration).1.connection = some c') :
    c'.heldTxs = [] := by
  have hnone : (Task.publishing state).connection = none := by
    cases state with
    | connected c => exact absurd rfl (hs c)
    | _ => rfl
  cases h with
  | quiet | spawned | disconnect => cases hnone.symm.trans hc'
  | connected | reconnected =>
      cases hc'
      rfl
  | connectFailed | reconnectFailed | shutdown | exit | panic => cases hc'

/-! ## Steps -/

/-- The senders that the connection of the listener holds. -/
def World.heldTxs (w : World) : List TxId :=
  (w.task.connection.map Connected.heldTxs).getD []

theorem World.mem_heldTxs : tx ∈ w.heldTxs ↔ ∃ c, w.task.connection = some c ∧ tx ∈ c.heldTxs := by
  unfold World.heldTxs
  cases w.task.connection <;> simp

/-- A sender that the listener holds it held before, unless it has just taken a command. -/
theorem WorldStep.heldTxs (h : WorldStep w label w') (htx : tx ∈ w'.heldTxs) :
    tx ∈ w.heldTxs ∨ ∃ input, label = .select input ∧ input.tx? = some tx := by
  obtain ⟨c', hc', hmem⟩ := World.mem_heldTxs.mp htx
  cases h with
  | elapse => exact .inl htx
  | @connected c input iteration htask hfresh hiter =>
      rcases hiter.heldTxs hc' hmem with hinput | hmem
      · exact .inr ⟨input, rfl, hinput⟩
      · exact .inl (World.mem_heldTxs.mpr ⟨c, by rw [htask]; rfl, hmem⟩)
  | unconnected htask hs hfresh hiter =>
      rw [hiter.heldTxs hs hc'] at hmem
      cases hmem
  | pushed htask | publish htask =>
      exact .inl (World.mem_heldTxs.mpr ⟨c', by rw [htask]; exact hc', hmem⟩)

theorem WorldStep.answers (h : WorldStep w label w') :
    ∃ effects, w'.effects = w.effects ++ effects ∧ ∀ effect ∈ effects, ∀ tx, effect.tx? = some tx →
      tx ∈ w.heldTxs ∨ ∃ input, label = .select input ∧ input.tx? = some tx := by
  have recorded : ∀ (before : State) (input : Input) (iteration : Iteration),
      (w.record before input iteration).effects = w.effects ++ (World.outcome iteration).2 := by
    intro before input iteration
    simp only [World.effects, record_trace, List.flatMap_append, List.flatMap_singleton]
  cases h with
  | elapse | pushed | publish => exact ⟨[], (List.append_nil _).symm, by simp⟩
  | @connected c input iteration htask hfresh hiter =>
      refine ⟨_, recorded _ _ _, ?_⟩
      intro effect hmem tx htx
      rcases (hiter.cause hmem).held htx with hinput | ⟨c', hc', hmem⟩
      · exact .inr ⟨input, rfl, hinput⟩
      · cases hc'
        exact .inl (World.mem_heldTxs.mpr ⟨c, by rw [htask]; rfl, hmem⟩)
  | @unconnected state input iteration htask hs hfresh hiter =>
      refine ⟨_, recorded _ _ _, ?_⟩
      intro effect hmem tx htx
      rcases (hiter.cause hmem).held htx with hinput | ⟨c', hc', _⟩
      · exact .inr ⟨input, rfl, hinput⟩
      · exact absurd hc' (hs c')

end PhoenixChannels.Socket
