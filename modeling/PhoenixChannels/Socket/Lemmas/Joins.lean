import PhoenixChannels.Socket.Lemmas.JoinTimeouts

/-!
# Answers to joins

Each join that the listener has written is pending, with its timer, until it is answered; it is
answered at most once, and only a later join of the same channel can take its place.
-/

namespace PhoenixChannels.Socket

open Machine

/-! ## Joins taken and joins answered -/

def Effect.answersJoin? : Effect → Option TxId
  | joinedTx tx _ => some tx
  | _ => none

/-- The joins that a list of effects answers. -/
def answered (effects : List Effect) : List TxId := effects.filterMap Effect.answersJoin?

/-- A `Join` command, with whether its push was written. -/
def Input.join? : Input → Option (Join × Bool)
  | channelStateCommand (.join j) _ (.ok ()) => some (j, true)
  | channelStateCommand (.join j) _ (.error _) => some (j, false)
  | _ => none

/-- The `Join` commands that the listener took. -/
def joinsTaken (trace : List Entry) : List (Join × Bool) :=
  trace.filterMap (fun e => e.input.join?)

def joinTxs (trace : List Entry) : List TxId := (joinsTaken trace).map (fun x => x.1.joinedTx)

/-- The last `Join` command that the listener took for a channel. -/
def lastJoin (joinReference : JoinReference) (trace : List Entry) : Option (Join × Bool) :=
  ((joinsTaken trace).filter (fun x => x.1.joinReference = joinReference)).getLast?

/-- Every `Join` command comes with a `oneshot` channel of its own. -/
def joinsDistinct (w : World) : Label → Bool
  | .select input => input.join?.all (fun x => x.1.joinedTx ∉ joinTxs w.trace)
  | _ => true

variable {w : World} {e : Entry} {trace : List Entry} {before : State} {input : Input}
variable {iteration : Iteration} {now : Instant} {fresh : TxId} {c c' : Connected} {key : JoinKey}
variable {effects : List Effect}

@[simp] theorem answered_append (es es' : List Effect) :
    answered (es ++ es') = answered es ++ answered es' := List.filterMap_append

theorem answered_eq_nil (h : ∀ e ∈ effects, e.answersJoin? = none) : answered effects = [] :=
  List.filterMap_eq_nil_iff.mpr h

theorem joinsTaken_append : joinsTaken (trace ++ [e]) = joinsTaken trace ++ e.input.join?.toList := by
  simp only [joinsTaken, List.filterMap_append]
  cases h : e.input.join? <;> simp [h]

theorem joinTxs_append : joinTxs (trace ++ [e]) =
    joinTxs trace ++ (e.input.join?.map (fun x => x.1.joinedTx)).toList := by
  simp only [joinTxs, joinsTaken_append, List.map_append]
  cases e.input.join? <;> rfl

theorem lastJoin_append {ref : JoinReference} : lastJoin ref (trace ++ [e]) =
    match e.input.join? with
    | some x => if x.1.joinReference = ref then some x else lastJoin ref trace
    | none => lastJoin ref trace := by
  simp only [lastJoin, joinsTaken_append, List.filter_append]
  cases e.input.join? with
  | none => simp
  | some x =>
      by_cases hx : x.1.joinReference = ref <;> simp [hx]

/-! ## What an iteration does to the joins -/

theorem Effect.answersJoin?_of_quiet {effect : Effect} (h : effect.quiet = true) :
    effect.answersJoin? = none := by
  cases effect <;> first | rfl | cases h

theorem LostEffect.answersJoin? {d : Disconnected} {effect : Effect}
    (h : LostEffect d input effect) : effect.answersJoin? = none := by
  cases h with
  | quiet hq => exact Effect.answersJoin?_of_quiet hq.quiet
  | _ => rfl

theorem answered_sendDisconnected {d : Disconnected} : answered (sendDisconnected c d).2 =
    c.joinByReferenceByTopic.values.map Join.joinedTx := by
  have hcalls : answered (c.replyTxByReferenceByJoinReferenceByTopic.values.map
      (fun replyTx => .replyTx replyTx (.error .socketDisconnected))) = [] :=
    answered_eq_nil fun e he => by
      obtain ⟨tx, _, rfl⟩ := List.mem_map.mp he
      rfl
  have hjoins : answered (c.joinByReferenceByTopic.values.map
      (fun join => .joinedTx join.joinedTx (.error .disconnected))) =
        c.joinByReferenceByTopic.values.map Join.joinedTx := by
    rw [answered, List.filterMap_map]
    exact congrFun List.filterMap_eq_map _
  simp only [sendDisconnected, answered_append, hcalls, hjoins, List.append_nil]
  rfl

theorem Input.join?_of_silent (h : input.silent = true) (j : Join) :
    input.join? ≠ some (j, true) := by
  intro hj
  have hpush := Input.push?_of_silent h
  unfold Input.join? at hj
  split at hj
  · cases hpush
  · cases hj
  · cases hj

/-- What an iteration with a connection does to the joins: the ones it answers, the `Join` command
that it took, and the task after it. -/
inductive JoinsChange (c : Connected) : List TxId → Option (Join × Bool) → Task → Prop
  | kept {c' : Connected} {taken : Option (Join × Bool)} {task : Task} :
      task.connection = some c' → (∀ j, taken ≠ some (j, true)) →
      (∀ key, c'.pendingJoin key = c.pendingJoin key) →
      (∀ timer ∈ c.joinTimeouts, (c.pendingJoin timer.key).isSome = true →
        timer ∈ c'.joinTimeouts) → JoinsChange c [] taken task
  | started {c' : Connected} {task : Task} (j : Join) :
      task.connection = some c' →
      (∀ key, c'.pendingJoin key = if key = j.key then some j else c.pendingJoin key) →
      c'.joinTimeouts = c.joinTimeouts ++ [⟨j.deadline, j.key, j.joinedTx⟩] →
      JoinsChange c [] (some (j, true)) task
  | answered {c' : Connected} {task : Task} (key : JoinKey) (j : Join) :
      task.connection = some c' → c.pendingJoin key = some j →
      (∀ key', c'.pendingJoin key' = if key' = key then none else c.pendingJoin key') →
      (∀ timer ∈ c.joinTimeouts, timer.key ≠ key → timer ∈ c'.joinTimeouts) →
      JoinsChange c [j.joinedTx] none task
  | lost {taken : Option (Join × Bool)} {task : Task} :
      task.connection = none → (∀ j, taken ≠ some (j, true)) →
      JoinsChange c (c.joinByReferenceByTopic.values.map Join.joinedTx) taken task
  | dead {taken : Option (Join × Bool)} {task : Task} :
      task.state = none → JoinsChange c [] taken task

theorem JoinsChange.unchanged {taken : Option (Join × Bool)} {task : Task}
    (htask : task.connection = some c') (htaken : ∀ j, taken ≠ some (j, true))
    (hpending : ∀ key, c'.pendingJoin key = c.pendingJoin key)
    (htimers : c'.joinTimeouts = c.joinTimeouts) : JoinsChange c [] taken task :=
  .kept htask htaken hpending fun _ h _ => htimers ▸ h

theorem connection_publishing : (Task.publishing (.connected c)).connection = some c := rfl

theorem reply_joinsChange (r : Reply) :
    JoinsChange c (answered (c.handleReply r fresh).2) none
      (.publishing (.connected (c.handleReply r fresh).1)) := by
  have unanswered : c.pendingJoin r.key = none → answered (c.handleReply r fresh).2 = [] →
      JoinsChange c (answered (c.handleReply r fresh).2) none
        (.publishing (.connected (c.handleReply r fresh).1)) := by
    intro hnone heffects
    rw [heffects]
    refine .unchanged connection_publishing (by simp) (fun key => ?_) (by simp)
    rw [Connected.handleReply_pendingJoin]
    split
    · rw [‹key = r.key›, hnone]
    · rfl
  rcases c.handleReply_cases r fresh with ⟨join, hjoin, h⟩ | ⟨hjoin, tx, _, h⟩ | ⟨hjoin, _, h⟩
  · obtain ⟨result, hresult, _⟩ := (c.removeJoin r.key).2.finishJoin_effects r join fresh
    have heffects : (c.handleReply r fresh).2 = [.joinedTx join.joinedTx result] := by
      rw [h, hresult]
    rw [heffects]
    exact .answered r.key join connection_publishing hjoin
      (fun _ => Connected.handleReply_pendingJoin) (fun timer htimer _ => by simpa using htimer)
  · exact unanswered hjoin (by rw [h]; rfl)
  · exact unanswered hjoin (by rw [h]; rfl)

theorem broadcast_joinsChange (b : Broadcast) :
    JoinsChange c (answered (c.handleBroadcast b).2) none
      (.publishing (.connected (c.handleBroadcast b).1)) := by
  obtain ⟨map, hmap⟩ := c.handleBroadcast_cases b
  have hanswered : answered (c.handleBroadcast b).2 = [] := by
    rcases c.handleBroadcast_effects b with h | ⟨tx, h⟩ <;> rw [h] <;> rfl
  rw [hanswered, hmap]
  exact .unchanged connection_publishing (by simp) (fun _ => rfl) rfl

theorem answered_leave {message : Message} {leave : Leave} {senders : Option JoinedChannelSenders} :
    answered ([.write message (.leave leave.ticket)]
      ++ (senders.map fun senders => Effect.memberLeftTx senders.left).toList
      ++ [.leftTx leave.leftTx (.ok ())]) = [] := by
  cases senders <;> rfl

theorem timedOut_joinsChange {index : Nat} {timer : JoinTimeout}
    (htimer : c.joinTimeouts[index]? = some timer) :
    JoinsChange c
      (answered (Connected.joinTimedOut { c with joinTimeouts := c.joinTimeouts.eraseIdx index }
        timer.key).2) none
      (.publishing (.connected
        (Connected.joinTimedOut { c with joinTimeouts := c.joinTimeouts.eraseIdx index }
          timer.key).1)) := by
  have hothers : ∀ timer' ∈ c.joinTimeouts, timer'.key ≠ timer.key →
      timer' ∈ c.joinTimeouts.eraseIdx index := by
    intro timer' hmem hne
    obtain ⟨i, hi⟩ := List.mem_iff_getElem?.mp hmem
    refine List.mem_eraseIdx_iff_getElem?.mpr ⟨i, ?_, hi⟩
    rintro rfl
    exact hne (congrArg JoinTimeout.key (Option.some.inj (hi.symm.trans htimer)))
  have hpending : ∀ key, (({ c with joinTimeouts := c.joinTimeouts.eraseIdx index }
      : Connected).removeJoin timer.key).2.pendingJoin key =
        if key = timer.key then none else c.pendingJoin key :=
    fun _ => Connected.removeJoin_pendingJoin
  have hsame : Connected.pendingJoin { c with joinTimeouts := c.joinTimeouts.eraseIdx index }
      timer.key = c.pendingJoin timer.key := rfl
  rw [Connected.joinTimedOut_effects, Connected.joinTimedOut_fst, hsame]
  cases hjoin : c.pendingJoin timer.key with
  | some join => exact .answered timer.key join connection_publishing hjoin hpending hothers
  | none =>
      apply JoinsChange.kept connection_publishing (by simp)
      · intro key
        rw [hpending]
        split
        · rw [‹key = timer.key›, hjoin]
        · rfl
      · intro timer' hmem hsome
        refine hothers timer' hmem fun hkey => ?_
        rw [hkey, hjoin] at hsome
        cases hsome

theorem lost_joinsChange {start rest : List Effect} {state : State} {d : Disconnected}
    (hs : input.silent = true) (hlost : state = lostState now c d)
    (hq : ∀ e ∈ start ++ rest, LostEffect d input e) :
    JoinsChange c (answered (start ++ (sendDisconnected c d).2 ++ rest)) input.join?
      (.publishing state) := by
  have hstart : answered start = [] :=
    answered_eq_nil fun e he => (hq e (List.mem_append_left _ he)).answersJoin?
  have hrest : answered rest = [] :=
    answered_eq_nil fun e he => (hq e (List.mem_append_right _ he)).answersJoin?
  simp only [answered_append, hstart, hrest, answered_sendDisconnected, List.nil_append,
    List.append_nil]
  refine .lost ?_ (Input.join?_of_silent hs)
  cases hstate : (Task.publishing state).connection with
  | none => rfl
  | some c' =>
      rw [Task.connection_eq_some, Task.state_publishing, Option.some.injEq] at hstate
      exact absurd (hlost.symm.trans hstate) lostState_ne_connected

theorem ConnectedIteration.joinsChange (h : ConnectedIteration now fresh c input iteration) :
    JoinsChange c (answered (World.outcome iteration).2) input.join?
      (World.outcome iteration).1 := by
  cases h with
  | quiet heartbeat reference hs hq =>
      simp only [World.outcome]
      rw [answered_eq_nil fun e he => Effect.answersJoin?_of_quiet (hq e he).quiet]
      exact .unchanged connection_publishing (Input.join?_of_silent (Input.silent_of_passive hs))
        (fun _ => rfl) rfl
  | spawned uuid => exact .unchanged connection_publishing (by simp [Input.join?]) (fun _ => rfl) rfl
  | reply r hd => exact reply_joinsChange r
  | broadcast b hd => exact broadcast_joinsChange b
  | push p pushTx hd hp => exact .unchanged rfl (by simp [Input.join?]) (fun _ => rfl) rfl
  | join j uuid => exact .started j connection_publishing (fun _ => Connected.joined_pendingJoin) rfl
  | leave l uuid =>
      simp only [World.outcome, answered_leave]
      exact .unchanged connection_publishing (by simp [Input.join?]) (by simp) (by simp)
  | call k uuid => exact .unchanged connection_publishing (by simp [Input.join?]) (fun _ => rfl) rfl
  | cast k uuid => exact .unchanged connection_publishing (by simp [Input.join?]) (fun _ => rfl) rfl
  | timedOut index timer htimer hdue => exact timedOut_joinsChange htimer
  | lost d hs hlost hq => exact lost_joinsChange hs hlost hq
  | exit error => exact .dead rfl
  | panic hr => exact .dead rfl

/-! ## The invariant -/

/-- A pending join was taken, is not answered yet, and its timer is running. -/
structure PendingSound (w : World) (c : Connected) (key : JoinKey) (join : Join) : Prop where
  taken : ∃ sent, (join, sent) ∈ joinsTaken w.trace
  keyed : join.key = key
  unanswered : join.joinedTx ∉ answered w.effects
  timer : ⟨join.deadline, key, join.joinedTx⟩ ∈ c.joinTimeouts

structure JoinsTracked (w : World) : Prop where
  distinct : (joinTxs w.trace).Nodup
  once : (answered w.effects).Nodup
  known : ∀ tx ∈ answered w.effects, tx ∈ joinTxs w.trace
  pending {c : Connected} {key : JoinKey} {join : Join} : w.task.connection = some c →
    c.pendingJoin key = some join → PendingSound w c key join
  /-- The last join of a channel, if it was written, is answered or pending. -/
  covered {ref : JoinReference} {join : Join} : w.task.isRunning = true →
    lastJoin ref w.trace = some (join, true) →
    join.joinedTx ∈ answered w.effects ∨
      ∃ c, w.task.connection = some c ∧ c.pendingJoin join.key = some join

theorem JoinsTracked.join_eq (h : JoinsTracked w) {j j' : Join} {sent sent' : Bool}
    (hj : (j, sent) ∈ joinsTaken w.trace) (hj' : (j', sent') ∈ joinsTaken w.trace)
    (htx : j.joinedTx = j'.joinedTx) : j = j' :=
  congrArg Prod.fst (List.inj_on_of_nodup_map h.distinct hj hj' htx)

theorem JoinsTracked.pending_eq (h : JoinsTracked w) (hc : w.task.connection = some c)
    {key key' : JoinKey} {j j' : Join} (hj : c.pendingJoin key = some j)
    (hj' : c.pendingJoin key' = some j') (htx : j.joinedTx = j'.joinedTx) : j = j' := by
  obtain ⟨sent, hsent⟩ := (h.pending hc hj).taken
  obtain ⟨sent', hsent'⟩ := (h.pending hc hj').taken
  exact h.join_eq hsent hsent' htx

theorem lastJoin_mem {ref : JoinReference} {x : Join × Bool} (h : lastJoin ref trace = some x) :
    x ∈ joinsTaken trace ∧ x.1.joinReference = ref := by
  have hmem := List.mem_of_getLast? h
  simpa using hmem

theorem lastJoin_of_unwritten {ref : JoinReference} {join : Join}
    (he : ∀ j, e.input.join? ≠ some (j, true))
    (h : lastJoin ref (trace ++ [e]) = some (join, true)) :
    lastJoin ref trace = some (join, true) := by
  rw [lastJoin_append] at h
  split at h
  · rename_i x hx
    split at h
    · obtain rfl := Option.some.inj h
      exact absurd hx (he join)
    · exact h
  · exact h

theorem JoinsTracked.nodup_pendingTxs (h : JoinsTracked w) (hc : w.task.connection = some c) :
    (c.joinByReferenceByTopic.values.map Join.joinedTx).Nodup := by
  have hpending : ∀ {topic ref join}, c.joinByReferenceByTopic.find topic ref = some join →
      c.pendingJoin ⟨topic, ref⟩ = some join := id
  refine List.Nodup.map_on ?_ (NestedMap.nodup_values ?_)
  · intro j hj j' hj' htx
    obtain ⟨topic, ref, hfind⟩ := NestedMap.mem_values.mp hj
    obtain ⟨topic', ref', hfind'⟩ := NestedMap.mem_values.mp hj'
    exact h.pending_eq hc (hpending hfind) (hpending hfind') htx
  · intro topic ref topic' ref' join hfind hfind'
    have hkey := (h.pending hc (hpending hfind)).keyed
    have hkey' := (h.pending hc (hpending hfind')).keyed
    exact JoinKey.mk.inj (hkey.symm.trans hkey')

theorem JoinsChange.answers {txs : List TxId} {taken : Option (Join × Bool)} {task : Task}
    (h : JoinsChange c txs taken task) {tx : TxId} (htx : tx ∈ txs) :
    ∃ key join, c.pendingJoin key = some join ∧ join.joinedTx = tx := by
  cases h with
  | answered key j hc hj => exact ⟨key, j, hj, (List.mem_singleton.mp htx).symm⟩
  | lost => exact mem_pendingTxs.mp htx
  | kept | started | dead => cases htx

section Record

variable (h : JoinsTracked w) (hc : w.task.connection = some c)
  (hnew : joinsDistinct w (.select input) = true)
  (hchange : JoinsChange c (answered (World.outcome iteration).2) input.join?
    (World.outcome iteration).1)

include h in
theorem JoinsTracked.distinct_record (hnew : joinsDistinct w (.select input) = true) :
    (joinTxs (w.record before input iteration).trace).Nodup := by
  rw [record_trace, joinTxs_append]
  cases hjoin : input.join? with
  | none => simpa using h.distinct
  | some x =>
      have hx : x.1.joinedTx ∉ joinTxs w.trace := by simpa [joinsDistinct, hjoin] using hnew
      refine List.nodup_append.mpr ⟨h.distinct, by simp, ?_⟩
      intro a ha b hb hab
      obtain rfl : b = x.1.joinedTx := by simpa using hb
      exact hx (hab ▸ ha)

include h hc hchange in
theorem JoinsTracked.once_record :
    (answered (w.record before input iteration).effects).Nodup := by
  rw [record_effects, answered_append]
  refine List.nodup_append.mpr ⟨h.once, ?_, ?_⟩
  · generalize answered (World.outcome iteration).2 = txs, input.join? = taken at hchange
    cases hchange with
    | lost => exact h.nodup_pendingTxs hc
    | answered key j => exact List.nodup_singleton _
    | kept | started | dead => exact List.nodup_nil
  · intro tx htx tx' htx' heq
    obtain ⟨key, join, hjoin, rfl⟩ := hchange.answers htx'
    exact (h.pending hc hjoin).unanswered (heq ▸ htx)

include h hc hchange in
theorem JoinsTracked.known_record :
    ∀ tx ∈ answered (w.record before input iteration).effects,
      tx ∈ joinTxs (w.record before input iteration).trace := by
  intro tx htx
  rw [record_trace, joinTxs_append]
  rw [record_effects, answered_append] at htx
  refine List.mem_append_left _ ?_
  rcases List.mem_append.mp htx with htx | htx
  · exact h.known tx htx
  · obtain ⟨key, join, hjoin, rfl⟩ := hchange.answers htx
    obtain ⟨sent, hsent⟩ := (h.pending hc hjoin).taken
    exact List.mem_map_of_mem hsent

theorem PendingSound.record {key : JoinKey} {join : Join} (h : PendingSound w c key join)
    (hunanswered : join.joinedTx ∉ answered (World.outcome iteration).2)
    (htimer : ⟨join.deadline, key, join.joinedTx⟩ ∈ c'.joinTimeouts) :
    PendingSound (w.record before input iteration) c' key join where
  taken := by
    obtain ⟨sent, hsent⟩ := h.taken
    refine ⟨sent, ?_⟩
    rw [record_trace, joinsTaken_append]
    exact List.mem_append_left _ hsent
  keyed := h.keyed
  unanswered := by
    rw [record_effects, answered_append, List.mem_append]
    exact not_or.mpr ⟨h.unanswered, hunanswered⟩
  timer := htimer

include h hc hnew hchange in
theorem JoinsTracked.pending_record {key : JoinKey} {join : Join}
    (hc' : (World.outcome iteration).1.connection = some c')
    (hjoin : c'.pendingJoin key = some join) :
    PendingSound (w.record before input iteration) c' key join := by
  generalize hanswered : answered (World.outcome iteration).2 = txs at hchange
  generalize hinput : input.join? = taken at hchange
  generalize htask : (World.outcome iteration).1 = task at hchange hc'
  cases hchange with
  | kept hc₁ htaken hpending htimers =>
      obtain rfl := Option.some.inj (hc₁.symm.trans hc')
      rw [hpending] at hjoin
      have hold := h.pending hc hjoin
      exact hold.record (by simp [hanswered])
        (htimers _ hold.timer (by simp [hjoin]))
  | started j hc₁ hpending htimers =>
      obtain rfl := Option.some.inj (hc₁.symm.trans hc')
      rw [hpending] at hjoin
      split at hjoin
      · rename_i hkey
        obtain rfl := Option.some.inj hjoin
        subst hkey
        have htx : j.joinedTx ∉ joinTxs w.trace := by simpa [joinsDistinct, hinput] using hnew
        refine ⟨⟨true, ?_⟩, rfl, ?_, ?_⟩
        · rw [record_trace, joinsTaken_append, hinput]
          simp
        · rw [record_effects, answered_append, hanswered, List.append_nil]
          exact fun hmem => htx (h.known _ hmem)
        · rw [htimers]
          simp
      · have hold := h.pending hc hjoin
        refine hold.record (by simp [hanswered]) ?_
        rw [htimers]
        exact List.mem_append_left _ hold.timer
  | answered key' j hc₁ hj hpending htimers =>
      obtain rfl := Option.some.inj (hc₁.symm.trans hc')
      rw [hpending] at hjoin
      split at hjoin
      · cases hjoin
      · rename_i hne
        have hold := h.pending hc hjoin
        refine hold.record ?_ (htimers _ hold.timer hne)
        rw [hanswered, List.mem_singleton]
        intro htx
        obtain rfl := h.pending_eq hc hjoin hj htx
        exact hne (hold.keyed.symm.trans (h.pending hc hj).keyed)
  | lost hnone => rw [hnone] at hc'; cases hc'
  | dead hdead => simp [Task.connection, hdead] at hc'

include h hc hchange in
theorem JoinsTracked.covered_record {ref : JoinReference} {join : Join}
    (hrunning : (World.outcome iteration).1.isRunning = true)
    (hlast : lastJoin ref (w.record before input iteration).trace = some (join, true)) :
    join.joinedTx ∈ answered (w.record before input iteration).effects ∨
      ∃ c', (World.outcome iteration).1.connection = some c' ∧
        c'.pendingJoin join.key = some join := by
  have hold : lastJoin ref w.trace = some (join, true) →
      join.joinedTx ∈ answered w.effects ∨ c.pendingJoin join.key = some join := by
    intro hlast
    refine (h.covered ?_ hlast).imp_right fun ⟨c₁, hc₁, hjoin⟩ => ?_
    · exact Option.isSome_iff_exists.mpr ⟨_, Task.connection_eq_some.mp hc⟩
    · obtain rfl := Option.some.inj (hc.symm.trans hc₁)
      exact hjoin
  rw [record_trace] at hlast
  rw [record_effects, answered_append, List.mem_append]
  generalize answered (World.outcome iteration).2 = txs at hchange ⊢
  generalize hinput : input.join? = taken at hchange
  generalize (World.outcome iteration).1 = task at hchange hrunning ⊢
  cases hchange with
  | kept hc₁ htaken hpending htimers =>
      rcases hold (lastJoin_of_unwritten (hinput ▸ htaken) hlast) with hdone | hjoin
      · exact .inl (.inl hdone)
      · exact .inr ⟨_, hc₁, (hpending _).trans hjoin⟩
  | started j hc₁ hpending htimers =>
      simp only [lastJoin_append, hinput] at hlast
      split at hlast
      · obtain rfl := (Prod.mk.inj (Option.some.inj hlast)).1
        exact .inr ⟨_, hc₁, by simp [hpending]⟩
      · rename_i hne
        rcases hold hlast with hdone | hjoin
        · exact .inl (.inl hdone)
        · refine .inr ⟨_, hc₁, ?_⟩
          rw [hpending, if_neg, hjoin]
          intro hkey
          exact hne ((congrArg JoinKey.joinReference hkey).symm.trans (lastJoin_mem hlast).2)
  | answered key j hc₁ hj hpending htimers =>
      rcases hold (lastJoin_of_unwritten (by simp [hinput]) hlast) with hdone | hjoin
      · exact .inl (.inl hdone)
      · by_cases hkey : join.key = key
        · obtain rfl := Option.some.inj (hj.symm.trans (hkey ▸ hjoin))
          exact .inl (.inr (List.mem_singleton_self _))
        · exact .inr ⟨_, hc₁, by rw [hpending, if_neg hkey, hjoin]⟩
  | lost hnone htaken =>
      rcases hold (lastJoin_of_unwritten (hinput ▸ htaken) hlast) with hdone | hjoin
      · exact .inl (.inl hdone)
      · exact .inl (.inr (mem_pendingTxs.mpr ⟨_, join, hjoin, rfl⟩))
  | dead hdead => simp [Task.isRunning, hdead] at hrunning

end Record

/-! ## Along a run -/

theorem UnconnectedIteration.joinsUnchanged (hs : ∀ c, before ≠ .connected c)
    (h : UnconnectedIteration now before input iteration) :
    answered (World.outcome iteration).2 = [] ∧
      ((∀ j, input.join? ≠ some (j, true)) ∨ (World.outcome iteration).1.state = none) ∧
      ∀ c', (World.outcome iteration).1.connection = some c' → ∀ key, c'.pendingJoin key = none := by
  have silent : ∀ {i : Input} {es : List Effect}, (∀ e ∈ es, Effect.QuietFor i e) →
      answered es = [] :=
    fun hq => answered_eq_nil fun e he => Effect.answersJoin?_of_quiet (hq e he).quiet
  have nojoin : ∀ {state : State}, (∀ c, state ≠ .connected c) →
      ∀ c', (Task.publishing state).connection = some c' → ∀ key, c'.pendingJoin key = none := by
    intro state hstate c' hc'
    rw [Task.connection_eq_some, Task.state_publishing, Option.some.injEq] at hc'
    exact absurd hc' (hstate c')
  have new : ∀ {now : Instant} {timeout : Duration} (c' : Connected),
      (Task.publishing (.connected (Connected.new now timeout))).connection = some c' →
      ∀ key, c'.pendingJoin key = none := by
    intro now timeout c' hc' key
    obtain rfl := Option.some.inj hc'
    exact Connected.new_pendingJoin
  cases h with
  | quiet hpassive hq =>
      exact ⟨silent hq, .inl (Input.join?_of_silent (Input.silent_of_passive hpassive)), nojoin hs⟩
  | spawned uuid => exact ⟨rfl, .inl (by simp [Input.join?]), nojoin hs⟩
  | connected hstate hq =>
      refine ⟨?_, .inl (by simp [Input.join?]), new⟩
      simp only [World.outcome, answered_append, silent hq]
      rfl
  | connectFailed hstate hq => exact ⟨silent hq, .inl (by simp [Input.join?]), nojoin (by simp)⟩
  | reconnected hstate hdue => exact ⟨rfl, .inl (by simp [Input.join?]), new⟩
  | reconnectFailed hstate hdue hq =>
      exact ⟨silent hq, .inl (by simp [Input.join?]), nojoin (by simp)⟩
  | disconnect => exact ⟨rfl, .inl (by simp [Input.join?]), nojoin hs⟩
  | shutdown => exact ⟨rfl, .inl (by simp [Input.join?]), nojoin (by simp)⟩
  | exit hr => exact ⟨rfl, .inr rfl, by simp [World.outcome, Task.connection, Task.state]⟩
  | panic hr => exact ⟨rfl, .inr rfl, by simp [World.outcome, Task.connection, Task.state]⟩

theorem JoinsTracked.record_unconnected (h : JoinsTracked w) (hc : w.task.connection = none)
    (hrunning : w.task.isRunning = true) (hnew : joinsDistinct w (.select input) = true)
    (hanswered : answered (World.outcome iteration).2 = [])
    (htaken : (∀ j, input.join? ≠ some (j, true)) ∨ (World.outcome iteration).1.state = none)
    (hpending : ∀ c', (World.outcome iteration).1.connection = some c' →
      ∀ key, c'.pendingJoin key = none) :
    JoinsTracked (w.record before input iteration) := by
  have heffects : answered (w.record before input iteration).effects = answered w.effects := by
    rw [record_effects, answered_append, hanswered, List.append_nil]
  refine ⟨h.distinct_record hnew, heffects ▸ h.once, ?_, ?_, ?_⟩
  · intro tx htx
    rw [heffects] at htx
    rw [record_trace, joinTxs_append]
    exact List.mem_append_left _ (h.known tx htx)
  · intro c' key join hc' hjoin
    rw [hpending c' hc' key] at hjoin
    cases hjoin
  · intro ref join hrunning' hlast
    rw [heffects]
    rcases htaken with htaken | hdead
    · rw [record_trace] at hlast
      rcases h.covered hrunning (lastJoin_of_unwritten htaken hlast) with hdone | ⟨c, hc₁, _⟩
      · exact .inl hdone
      · rw [hc] at hc₁
        cases hc₁
    · simp [Task.isRunning, hdead] at hrunning'

theorem JoinsTracked.of_eq {w' : World} (h : JoinsTracked w) (htrace : w'.trace = w.trace)
    (hstate : w'.task.state = w.task.state) : JoinsTracked w' := by
  have heffects : w'.effects = w.effects := congrArg (List.flatMap Entry.effects) htrace
  have hconnection : w'.task.connection = w.task.connection := by
    simp only [Task.connection, hstate]
  have hrunning : w'.task.isRunning = w.task.isRunning := by simp only [Task.isRunning, hstate]
  refine ⟨htrace ▸ h.distinct, heffects ▸ h.once, ?_, ?_, ?_⟩
  · rw [heffects, htrace]
    exact h.known
  · intro c key join hc hjoin
    obtain ⟨htaken, hkeyed, hunanswered, htimer⟩ := h.pending (hconnection ▸ hc) hjoin
    exact ⟨htrace ▸ htaken, hkeyed, heffects ▸ hunanswered, htimer⟩
  · rw [heffects, htrace, hconnection, hrunning]
    exact h.covered

theorem joinsTracked_of_run {strategy : Option (Nat → Duration)} {ls : List Label}
    (h : Run (machine strategy) (fun w l => joinsDistinct w l = true) World.init ls w) :
    JoinsTracked w := by
  refine h.invariant ?_ ?_
  · constructor <;> simp [World.init, World.effects, joinTxs, joinsTaken, Socket.answered,
      Task.connection, lastJoin]
  intro w label w' ih hok hstep
  cases step_cases hstep with
  | elapse duration => exact ih.of_eq rfl rfl
  | @connected c input iteration htask hfresh hiter =>
      have hc : w.task.connection = some c := by rw [htask]; rfl
      have hchange := hiter.joinsChange
      exact ⟨ih.distinct_record hok, ih.once_record hc hchange, ih.known_record hc hchange,
        ih.pending_record hc hok hchange, ih.covered_record hc hchange⟩
  | @unconnected state input iteration htask hs hfresh hiter =>
      have hc : w.task.connection = none := by
        cases state with
        | connected c => exact absurd rfl (hs c)
        | _ => rw [htask]; rfl
      obtain ⟨hanswered, htaken, hpending⟩ := hiter.joinsUnchanged hs
      exact ih.record_unconnected hc (by rw [htask]; rfl) hok hanswered htaken hpending
  | pushed htask => exact ih.of_eq rfl (by rw [htask]; rfl)
  | publish htask => exact ih.of_eq rfl (by rw [htask]; rfl)

end PhoenixChannels.Socket
