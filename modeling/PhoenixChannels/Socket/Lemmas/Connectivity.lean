import PhoenixChannels.Socket.Lemmas.Spawns

/-!
# Connectivity

The last connectivity change that was broadcast tells whether the socket is connected, and a channel
is spawned in the state that goes with it.
-/

namespace PhoenixChannels.Socket

open Machine

/-- What an iteration broadcasts, by the states it began in and leads to. -/
inductive Broadcasts : State → State → List Connectivity → Prop
  | kept {c c'} : Broadcasts (.connected c) (.connected c') []
  | lost {c state} (d : Disconnected) : (∀ c', state ≠ .connected c') →
      Broadcasts (.connected c) state [.disconnected d]
  | unconnected {before state} : (∀ c, before ≠ .connected c) → (∀ c, state ≠ .connected c) →
      Broadcasts before state []
  | connected {before c} : Broadcasts before (.connected c) [.connected]

variable {w w' : World} {before state : State} {input : Input} {iteration : Iteration}
variable {now : Instant} {fresh : TxId} {c : Connected} {strategy : Option (Nat → Duration)}
variable {label : Label} {effects : List Effect}

/-! ## Connectivity changes in a list of effects -/

@[simp] theorem connectivities_append (es es' : List Effect) :
    connectivities (es ++ es') = connectivities es ++ connectivities es' := List.filterMap_append

theorem connectivities_eq_nil (h : ∀ e ∈ effects, e.connectivity? = none) :
    connectivities effects = [] := List.filterMap_eq_nil_iff.mpr h

theorem Effect.connectivity?_of_quiet {e : Effect} (h : e.quiet = true) :
    e.connectivity? = none := by
  cases e <;> first | rfl | cases h

theorem LostEffect.connectivity? {e : Effect} {d : Disconnected} (h : LostEffect d input e) :
    e.connectivity? = none := by
  cases h with
  | quiet hq => exact Effect.connectivity?_of_quiet hq.quiet
  | _ => rfl

theorem connectivities_sendDisconnected {d : Disconnected} :
    connectivities (sendDisconnected c d).2 = [.disconnected d] := by
  simp [connectivities, sendDisconnected, List.filterMap_map, Effect.connectivity?,
    Function.comp_def]

/-! ## What an iteration broadcasts -/

theorem ConnectedIteration.broadcasts (h : ConnectedIteration now fresh c input iteration)
    (hstate : (World.outcome iteration).1.state = some state) :
    Broadcasts (.connected c) state (connectivities (World.outcome iteration).2) := by
  cases h with
  | lost d hr hlost hq =>
      simp only [World.outcome, Task.state_publishing, Option.some.injEq] at hstate
      subst hstate
      rename_i start rest _
      have hstart : connectivities start = [] :=
        connectivities_eq_nil fun e he => (hq e (List.mem_append_left _ he)).connectivity?
      have hrest : connectivities rest = [] :=
        connectivities_eq_nil fun e he => (hq e (List.mem_append_right _ he)).connectivity?
      simp only [World.outcome, connectivities_append, hstart, hrest,
        connectivities_sendDisconnected, List.nil_append, List.append_nil]
      exact .lost d fun c' h => lostState_ne_connected (hlost.symm.trans h)
  | exit error => cases hstate
  | panic hr => cases hstate
  | quiet heartbeat reference hr hq =>
      cases hstate
      simp only [World.outcome]
      rw [connectivities_eq_nil fun e he => Effect.connectivity?_of_quiet (hq e he).quiet]
      exact .kept
  | spawned uuid => cases hstate; exact .kept
  | reply r hd =>
      cases hstate
      simp only [World.outcome]
      rcases c.handleReply_cases r fresh with ⟨join, _, h⟩ | ⟨_, tx, _, h⟩ | ⟨_, _, h⟩ <;>
        simp only [h]
      · obtain ⟨result, hr, _⟩ := (c.removeJoin r.key).2.finishJoin_effects r join fresh
        rw [hr]
        exact .kept
      · exact .kept
      · exact .kept
  | broadcast b hd =>
      cases hstate
      simp only [World.outcome]
      rcases c.handleBroadcast_effects b with h | ⟨tx, h⟩ <;> rw [h] <;> exact .kept
  | push p pushTx hd hp => cases hstate; exact .kept
  | join j uuid => cases hstate; exact .kept
  | leave l uuid =>
      cases hstate
      simp only [World.outcome]
      cases (c.removeJoinedChannelTxs l.key).1 <;> exact .kept
  | call k uuid => cases hstate; exact .kept
  | cast k uuid => cases hstate; exact .kept
  | timedOut index timer htimer hdue =>
      cases hstate
      simp only [World.outcome, Connected.joinTimedOut_effects]
      cases Connected.pendingJoin _ timer.key <;> exact .kept

theorem UnconnectedIteration.broadcasts (hbefore : ∀ c, before ≠ .connected c)
    (h : UnconnectedIteration now before input iteration)
    (hstate : (World.outcome iteration).1.state = some state) :
    Broadcasts before state (connectivities (World.outcome iteration).2) := by
  have silent : ∀ {i : Input} {es : List Effect}, (∀ e ∈ es, Effect.QuietFor i e) →
      connectivities es = [] :=
    fun hq => connectivities_eq_nil fun e he => Effect.connectivity?_of_quiet (hq e he).quiet
  cases h with
  | quiet hr hq =>
      cases hstate
      simp only [World.outcome]
      rw [silent hq]
      exact .unconnected hbefore hbefore
  | spawned uuid => cases hstate; exact .unconnected hbefore hbefore
  | connected hs hq =>
      cases hstate
      simp only [World.outcome]
      rw [connectivities_append, silent hq]
      exact .connected
  | connectFailed hs hq =>
      cases hstate
      simp only [World.outcome]
      rw [silent hq]
      exact .unconnected hbefore (by intro c h; cases h)
  | reconnected hs hdue => cases hstate; exact .connected
  | reconnectFailed hs hdue hq =>
      cases hstate
      simp only [World.outcome]
      rw [silent hq]
      exact .unconnected hbefore (by intro c h; cases h)
  | disconnect => cases hstate; exact .unconnected hbefore hbefore
  | shutdown => cases hstate; exact .unconnected hbefore (by intro c h; cases h)
  | exit hr => cases hstate
  | panic hr => cases hstate

/-! ## Along a run -/

/-- While the listener runs, the last connectivity change tells whether it has a connection. -/
def LastConnectivity (w : World) : Prop :=
  ∀ state, w.task.state = some state →
    ((connectivities w.effects).getLast? = some .connected ↔ ∃ c, state = .connected c)

theorem Broadcasts.last {changes sent : List Connectivity} (h : Broadcasts before state changes)
    (hlast : sent.getLast? = some .connected ↔ ∃ c, before = .connected c) :
    (sent ++ changes).getLast? = some .connected ↔ ∃ c, state = .connected c := by
  cases h with
  | kept => simpa using hlast
  | lost d hne => simpa using hne
  | unconnected hb hs =>
      rw [List.append_nil, hlast]
      exact ⟨fun ⟨c, h⟩ => absurd h (hb c), fun ⟨c, h⟩ => absurd h (hs c)⟩
  | connected => simp

theorem lastConnectivity_of_run {ok : World → Label → Prop} {ls : List Label}
    (h : Run (machine strategy) ok World.init ls w) : LastConnectivity w := by
  refine h.invariant ?_ ?_
  · intro state hstate
    simp only [World.init, Task.state_selecting, Option.some.injEq] at hstate
    subst hstate
    simp [World.effects, World.init, connectivities]
  intro w label w' ih _ hstep
  cases step_cases hstep with
  | elapse duration => exact ih
  | connected htask hfresh hiter =>
      intro state hstate
      rw [record_effects, connectivities_append]
      exact (hiter.broadcasts hstate).last (ih _ (by rw [htask]; rfl))
  | unconnected htask hs hfresh hiter =>
      intro state hstate
      rw [record_effects, connectivities_append]
      exact (hiter.broadcasts hs hstate).last (ih _ (by rw [htask]; rfl))
  | pushed htask =>
      intro state hstate
      exact ih state (by rw [htask]; exact hstate)
  | publish htask =>
      intro state hstate
      exact ih state (by rw [htask]; exact hstate)

/-- A channel that waits for the socket to connect was spawned while it was not connected. -/
def SpawnsAgree (w : World) : Prop :=
  ∀ i spawn key rejoin sent,
    w.effects[i]? = some (.spawned spawn key (.waitingForSocketToConnect rejoin) sent) →
    (connectivities (w.effects.take i)).getLast? ≠ some .connected

theorem channelState_waiting {rejoin : Option Channel.Rejoin}
    (h : channelState before = .waitingForSocketToConnect rejoin) :
    ∀ c, before ≠ .connected c := by
  rintro c rfl
  cases h

/-- A spawn after an iteration was there before, or it is all that the iteration did. -/
theorem spawned_record {i : Nat} {spawn : ChannelSpawn} {key : JoinReference}
    {channel : Channel.State} {sent : Bool}
    (he : Entry.Possible ⟨w.now, before, input, (World.outcome iteration).2⟩)
    (hi : (w.record before input iteration).effects[i]? = some (.spawned spawn key channel sent)) :
    (w.effects[i]? = some (.spawned spawn key channel sent) ∧
        (w.record before input iteration).effects.take i = w.effects.take i) ∨
      (channel = channelState before ∧
        (w.record before input iteration).effects.take i = w.effects) := by
  rw [record_effects] at hi ⊢
  rcases Nat.lt_or_ge i w.effects.length with hlt | hge
  · rw [List.getElem?_append_left hlt] at hi
    exact .inl ⟨hi, List.take_append_of_le_length (Nat.le_of_lt hlt)⟩
  · rw [List.getElem?_append_right hge] at hi
    obtain ⟨hchannel, honly⟩ := Entry.spawned_only he (List.mem_of_getElem? hi)
    simp only at honly hchannel
    rw [honly] at hi
    have hi' : i = w.effects.length := by
      have := (List.getElem?_eq_some_iff.mp hi).1
      simp only [List.length_singleton] at this
      omega
    rw [hi', List.take_left]
    exact .inr ⟨hchannel, rfl⟩

/-- What an iteration adds agrees with the connectivity, when the last change so far does. -/
theorem SpawnsAgree.record (hlast : LastConnectivity w) (h : SpawnsAgree w)
    (htask : w.task = .selecting before)
    (he : Entry.Possible ⟨w.now, before, input, (World.outcome iteration).2⟩) :
    SpawnsAgree (w.record before input iteration) := by
  intro i spawn key rejoin sent hi
  rcases spawned_record he hi with ⟨hold, htake⟩ | ⟨hchannel, htake⟩
  · rw [htake]
    exact h i spawn key rejoin sent hold
  · rw [htake, ne_eq, hlast before (by rw [htask]; rfl)]
    rintro ⟨c, rfl⟩
    exact channelState_waiting hchannel.symm c rfl

theorem spawnsAgree_of_run {ok : World → Label → Prop} {ls : List Label}
    (h : Run (machine strategy) ok World.init ls w) : SpawnsAgree w := by
  refine h.invariant_of_run ?_ ?_
  · intro i spawn key rejoin sent hi
    simp [World.effects, World.init] at hi
  intro ls w label w' hrun ih _ hstep
  have hlast := lastConnectivity_of_run hrun
  cases step_cases hstep with
  | elapse duration => exact ih
  | connected htask hfresh hiter => exact ih.record hlast htask (.connected rfl hiter rfl)
  | unconnected htask hs hfresh hiter => exact ih.record hlast htask (.unconnected hs hiter rfl)
  | pushed htask => exact ih
  | publish htask => exact ih

end PhoenixChannels.Socket
