import PhoenixChannels.Lib.History
import PhoenixChannels.Socket.Lemmas.Disconnects
import PhoenixChannels.Socket.Lemmas.JoinTimeouts

/-!
# Replies

Which request a reply resolves. The server echoes the topic, the join reference and the reference of
the push it answers; the listener looks at the reference only when no join of the channel is
pending.
-/

namespace PhoenixChannels

open Machine History

/-! ## Pushes and their references -/

def Reply.id (reply : Reply) : PushId := ⟨reply.key, reply.reference⟩

def Message.id? : Message → Option PushId
  | push p => p.reference.map (fun reference => ⟨p.key, reference⟩)
  | _ => none

namespace Socket

def Effect.written? : Effect → Option (PushId × Origin)
  | write message origin => message.id?.map (fun id => (id, origin))
  | _ => none

/-- The request that an effect resolves with what the server replied. -/
def Effect.resolves? : Effect → Option Origin
  | joinedTx tx (.ok _) | joinedTx tx (.error (.rejected _)) => some (.join tx)
  | replyTx tx (.ok _) | replyTx tx (.error (.reply _)) => some (.call tx)
  | _ => none

namespace Entry

def reply? (e : Entry) : Option Reply := e.input.reply?

/-- The pushes that were written, each with the command it was written for. -/
def written (e : Entry) : List (PushId × Origin) := e.effects.filterMap Effect.written?

def resolved (e : Entry) : List Origin := e.effects.filterMap Effect.resolves?

end Entry

/-- The pushes written so far. -/
def written (trace : List Entry) : List (PushId × Origin) := trace.flatMap Entry.written

/-- The pushes that were written on the present connection and not answered yet. -/
def owed (trace : List Entry) : List PushId :=
  trace.foldl (fun owed e =>
    (if e.broadcastsConnected then [] else owed.filter (fun id => e.reply?.map Reply.id ≠ some id))
      ++ e.written.map Prod.fst) []

/-! ## The property -/

/-- What the reply to a push must resolve: a call, or a join that is still pending. -/
def Entry.resolution (e : Entry) (key : JoinKey) : Origin → List Origin
  | .call tx => [.call tx]
  | .join tx => if (e.pendingJoin key).any (fun join => join.joinedTx == tx) then [.join tx] else []
  | _ => []

/-- Each reply resolves exactly the request whose push carried its reference, and nothing else
resolves a request. -/
structure RepliesCorrelate (w : World) : Prop where
  /-- A reference is carried by one push only. -/
  once : ((written w.trace).map (fun x => x.1.reference)).Nodup
  reply : ∀ e ∈ w.trace, ∀ r, e.reply? = some r →
    ∃ origin, (r.id, origin) ∈ written w.trace ∧ e.resolved = e.resolution r.key origin
  silent : ∀ e ∈ w.trace, e.reply? = none → e.resolved = []

/-! ## The server and the condition -/

/-- The server answers only pushes of the present connection, each at most once. -/
def serverEchoes (w : World) : Label → Bool
  | .select input => input.reply?.all (fun r => r.id ∈ owed w.trace)
  | _ => true

/-- A join is started only when no reply for its channel is outstanding, and while a join is pending
nothing else is written for its channel. -/
def joinsAlone (w : World) : Label → Bool
  | .select input =>
      match input.push? with
      | some (id, .join _) => (owed w.trace).all (fun id' => id'.key != id.key)
      | some (id, _) => w.task.connection.all (fun c => (c.pendingJoin id.key).isNone)
      | none => true
  | _ => true

/-! ## What an entry writes and resolves -/

variable {w : World} {e : Entry} {trace : List Entry} {before : State} {input : Input}
variable {iteration : Iteration} {now : Instant} {fresh : TxId} {c c' : Connected}

theorem written_append : written (trace ++ [e]) = written trace ++ e.written := by
  simp [written]

theorem mem_owed_append {id : PushId} :
    id ∈ owed (trace ++ [e]) ↔
      (e.broadcastsConnected = false ∧ id ∈ owed trace ∧ e.reply?.map Reply.id ≠ some id) ∨
        ∃ origin, (id, origin) ∈ e.written := by
  simp only [owed, List.foldl_append, List.foldl_cons, List.foldl_nil, List.mem_append,
    List.mem_map, Prod.exists, exists_and_right, exists_eq_right]
  refine or_congr_left ?_
  cases e.broadcastsConnected <;> simp

theorem Effect.written?_of_quiet {effect : Effect} (h : effect.quiet = true) :
    effect.written? = none := by
  cases effect with
  | write message origin => cases message <;> cases origin <;> first | rfl | cases h
  | _ => rfl

theorem Effect.resolves?_of_quiet {effect : Effect} (h : effect.quiet = true) :
    effect.resolves? = none := by
  cases effect <;> first | rfl | cases h

theorem sendDisconnected_silent {d : Disconnected} {effect : Effect}
    (hmem : effect ∈ (sendDisconnected c d).2) :
    effect.written? = none ∧ effect.resolves? = none := by
  rcases mem_sendDisconnected.mp hmem with rfl | ⟨key, join, _, rfl⟩ | ⟨key, r, tx, _, rfl⟩ <;>
    exact ⟨rfl, rfl⟩

theorem LostEffect.silent {d : Disconnected} {effect : Effect} (h : LostEffect d input effect) :
    effect.written? = none ∧ effect.resolves? = none := by
  cases h with
  | quiet hq => exact ⟨Effect.written?_of_quiet hq.quiet, Effect.resolves?_of_quiet hq.quiet⟩
  | _ => exact ⟨rfl, rfl⟩

theorem ConnectedIteration.written (h : ConnectedIteration now fresh c input iteration) :
    (World.outcome iteration).2.filterMap Effect.written? = [] ∨
      ∃ x, input.push? = some x ∧ (World.outcome iteration).2.filterMap Effect.written? = [x] := by
  cases h with
  | quiet heartbeat reference hr hq =>
      exact .inl (List.filterMap_eq_nil_iff.mpr fun f hf => Effect.written?_of_quiet (hq f hf).quiet)
  | spawned uuid => exact .inl rfl
  | reply r hd =>
      left
      simp only [World.outcome]
      rcases c.handleReply_cases r fresh with ⟨join, _, h⟩ | ⟨_, tx, _, h⟩ | ⟨_, _, h⟩ <;> rw [h]
      · obtain ⟨result, hr, _⟩ := (c.removeJoin r.key).2.finishJoin_effects r join fresh
        rw [hr]
        rfl
      · rfl
      · rfl
  | broadcast b hd =>
      left
      simp only [World.outcome]
      rcases c.handleBroadcast_effects b with h | ⟨tx, h⟩ <;> rw [h] <;> rfl
  | push p pushTx hd hp => exact .inl rfl
  | join j uuid => exact .inr ⟨_, rfl, rfl⟩
  | leave l uuid =>
      refine .inr ⟨_, rfl, ?_⟩
      simp only [World.outcome]
      cases (c.removeJoinedChannelTxs l.key).1 <;> rfl
  | call k uuid => exact .inr ⟨_, rfl, rfl⟩
  | cast k uuid => exact .inr ⟨_, rfl, rfl⟩
  | timedOut index timer htimer hdue =>
      left
      simp only [World.outcome, Connected.joinTimedOut_effects]
      cases Connected.pendingJoin _ timer.key <;> rfl
  | lost d hr hstate hq =>
      refine .inl (List.filterMap_eq_nil_iff.mpr ?_)
      intro f hf
      simp only [World.outcome, List.mem_append] at hf
      rcases hf with (hf | hf) | hf
      · exact (hq f (List.mem_append_left _ hf)).silent.1
      · exact (sendDisconnected_silent hf).1
      · exact (hq f (List.mem_append_right _ hf)).silent.1
  | exit error => exact .inl rfl
  | panic hr => exact .inl rfl

theorem UnconnectedIteration.written (h : UnconnectedIteration now before input iteration) :
    (World.outcome iteration).2.filterMap Effect.written? = [] := by
  refine List.filterMap_eq_nil_iff.mpr ?_
  intro f hf
  cases h with
  | quiet hr hq => exact Effect.written?_of_quiet (hq f hf).quiet
  | spawned uuid => obtain rfl := List.mem_singleton.mp hf; rfl
  | connected hs hq =>
      rcases List.mem_append.mp hf with hf | hf
      · obtain rfl := List.mem_singleton.mp hf
        rfl
      · exact Effect.written?_of_quiet (hq f hf).quiet
  | connectFailed hs hq => exact Effect.written?_of_quiet (hq f hf).quiet
  | reconnected => obtain rfl := List.mem_singleton.mp hf; rfl
  | reconnectFailed hs hdue hq => exact Effect.written?_of_quiet (hq f hf).quiet
  | disconnect => obtain rfl := List.mem_singleton.mp hf; rfl
  | shutdown => cases hf
  | exit => cases hf
  | panic => cases hf

theorem Entry.written_cases (h : e.Possible) :
    e.written = [] ∨ ∃ x, e.input.push? = some x ∧ e.written = [x] := by
  cases h with
  | connected hbefore hiter he => rw [Entry.written, he]; exact hiter.written
  | unconnected hs hiter he => rw [Entry.written, he]; exact .inl hiter.written

theorem Input.push?_reference {x : PushId × Origin} (h : input.push? = some x) :
    ∃ uuid, input.uuid? = some uuid ∧ x.1.reference = Reference.new uuid := by
  unfold Input.push? at h
  split at h <;> cases h <;> exact ⟨_, rfl, rfl⟩

theorem Entry.resolved_of_no_reply (h : e.Possible) (hr : e.reply? = none) : e.resolved = [] := by
  refine List.filterMap_eq_nil_iff.mpr ?_
  intro f hf
  have hcause := e.cause h hf
  obtain ⟨time, before, input, effects⟩ := e
  cases hcause with
  | quiet hq => exact Effect.resolves?_of_quiet hq.quiet
  | joinFinished r join result hd hjoin hres =>
      simp [Entry.reply?, Input.reply?, hd] at hr
  | replied r tx hd hjoin hcall => simp [Entry.reply?, Input.reply?, hd] at hr
  | _ => rfl

/-! ## References -/

/-- The references of the pushes are drawn ones, each drawn once. -/
def ReferencesDrawn (w : World) : Prop :=
  Drawn Reference.new ((written w.trace).map (fun x => x.1.reference)) w.uuids

theorem ReferencesDrawn.record (h : ReferencesDrawn w) (hfresh : w.uuidFresh input = true)
    (hwritten : Entry.written ⟨w.now, before, input, (World.outcome iteration).2⟩ = [] ∨
      ∃ x, input.push? = some x ∧
        Entry.written ⟨w.now, before, input, (World.outcome iteration).2⟩ = [x]) :
    ReferencesDrawn (w.record before input iteration) := by
  rw [ReferencesDrawn, record_trace, written_append, List.map_append, record_uuids]
  refine Drawn.append h (fun _ _ => Reference.new_injective) (uuidFresh_iff.mp hfresh) ?_
  rcases hwritten with hnil | ⟨x, hpush, hx⟩
  · exact .inl (by simp [hnil])
  · obtain ⟨uuid, huuid, href⟩ := Input.push?_reference hpush
    exact .inr ⟨uuid, huuid, by simp [hx, href]⟩

theorem referencesDrawn_of_run {strategy : Option (Nat → Duration)} {ok : World → Label → Prop}
    {ls : List Label} (h : Run (machine strategy) ok World.init ls w) : ReferencesDrawn w := by
  refine h.invariant (show ReferencesDrawn World.init from Drawn.nil) ?_
  intro w label w' ih _ hstep
  cases step_cases hstep with
  | elapse duration => exact ih
  | connected htask hfresh hiter => exact ih.record hfresh hiter.written
  | unconnected htask hs hfresh hiter => exact ih.record hfresh (.inl hiter.written)
  | pushed htask => exact ih
  | publish htask => exact ih

/-! ## The invariant -/

/-- The pending joins and calls of a connection, against what was written and is still owed. -/
structure Matches (trace : List Entry) (c : Connected) : Prop where
  ownJoin {key : JoinKey} {join : Join} {reference : Reference} :
    c.pendingJoin key = some join → ⟨key, reference⟩ ∈ owed trace →
    (⟨key, reference⟩, .join join.joinedTx) ∈ written trace
  callWritten {key : JoinKey} {reference : Reference} {tx : TxId} :
    c.pendingCall key reference = some tx → (⟨key, reference⟩, .call tx) ∈ written trace
  callPending {key : JoinKey} {reference : Reference} {tx : TxId} :
    ⟨key, reference⟩ ∈ owed trace → (⟨key, reference⟩, .call tx) ∈ written trace →
    c.pendingCall key reference = some tx

theorem Matches.start {timeout : Duration} (h : owed trace = []) :
    Matches trace (Connected.new now timeout) := by
  constructor <;> simp [h]

theorem Matches.unchanged (h : Matches trace c) (hw : e.written = []) (hr : e.reply? = none)
    (hb : e.broadcastsConnected = false)
    (hjoin : ∀ key join, c'.pendingJoin key = some join → c.pendingJoin key = some join)
    (hcall : ∀ key reference, c'.pendingCall key reference = c.pendingCall key reference) :
    Matches (trace ++ [e]) c' := by
  have howed : ∀ id, id ∈ owed (trace ++ [e]) ↔ id ∈ owed trace := by
    simp [mem_owed_append, hw, hr, hb]
  have hwritten : written (trace ++ [e]) = written trace := by simp [written_append, hw]
  constructor
  · intro key join reference hj hid
    rw [hwritten]
    exact h.ownJoin (hjoin _ _ hj) ((howed _).mp hid)
  · intro key reference tx hc
    rw [hwritten]
    exact h.callWritten (hcall _ _ ▸ hc)
  · intro key reference tx hid hc
    rw [hcall]
    exact h.callPending ((howed _).mp hid) (hwritten ▸ hc)

theorem Matches.write {id : PushId} {o : Origin} (h : Matches trace c) (hw : e.written = [(id, o)])
    (hr : e.reply? = none) (hb : e.broadcastsConnected = false)
    (hnew : ∀ x ∈ written trace, x.1 ≠ id)
    (hjoin : ∀ key join, c'.pendingJoin key = some join →
      (key ≠ id.key ∧ c.pendingJoin key = some join) ∨
        (key = id.key ∧ o = .join join.joinedTx ∧ ∀ id' ∈ owed trace, id'.key ≠ id.key))
    (hcall : ∀ key reference, ⟨key, reference⟩ ≠ id →
      c'.pendingCall key reference = c.pendingCall key reference)
    (hcallNew : ∀ tx, c'.pendingCall id.key id.reference = some tx ↔ o = .call tx) :
    Matches (trace ++ [e]) c' := by
  have howed : ∀ id', id' ∈ owed (trace ++ [e]) ↔ id' ∈ owed trace ∨ id' = id := by
    simp [mem_owed_append, hw, hr, hb]
  have hwritten : written (trace ++ [e]) = written trace ++ [(id, o)] := by
    rw [written_append, hw]
  constructor
  · intro key join reference hj hid
    rw [hwritten, List.mem_append, List.mem_singleton]
    rcases hjoin key join hj with ⟨hne, hj⟩ | ⟨rfl, rfl, hnone⟩
    · rcases (howed _).mp hid with hid | rfl
      · exact .inl (h.ownJoin hj hid)
      · exact absurd rfl hne
    · rcases (howed _).mp hid with hid | heq
      · exact absurd rfl (hnone ⟨id.key, reference⟩ hid)
      · exact .inr (by rw [heq])
  · intro key reference tx hc
    rw [hwritten, List.mem_append, List.mem_singleton]
    by_cases heq : (⟨key, reference⟩ : PushId) = id
    · subst heq
      exact .inr (by rw [(hcallNew tx).mp hc])
    · rw [hcall _ _ heq] at hc
      exact .inl (h.callWritten hc)
  · intro key reference tx hid hc
    rw [hwritten, List.mem_append, List.mem_singleton] at hc
    rcases hc with hc | hc
    · have hne := hnew _ hc
      rw [hcall _ _ hne]
      rcases (howed _).mp hid with hid | heq
      · exact h.callPending hid hc
      · exact absurd heq hne
    · obtain ⟨rfl, rfl⟩ := Prod.mk.inj hc
      exact (hcallNew tx).mpr rfl

theorem Connected.handleReply_pendingCall {r : Reply} {key : JoinKey} {reference : Reference} :
    (c.handleReply r fresh).1.pendingCall key reference =
      if c.pendingJoin r.key = none ∧ (⟨key, reference⟩ : PushId) = r.id then none
      else c.pendingCall key reference := by
  rcases c.handleReply_cases r fresh with ⟨join, hj, h⟩ | ⟨hj, tx, hc, h⟩ | ⟨hj, hc, h⟩ <;>
    simp [h, hj, removeReplyTx_pendingCall, Reply.id]

theorem Matches.reply {r : Reply} (h : Matches trace c) (hw : e.written = [])
    (hr : e.reply? = some r) (hb : e.broadcastsConnected = false) :
    Matches (trace ++ [e]) (c.handleReply r fresh).1 := by
  have howed : ∀ id, id ∈ owed (trace ++ [e]) ↔ id ∈ owed trace ∧ r.id ≠ id := by
    simp [mem_owed_append, hw, hr, hb]
  have hwritten : written (trace ++ [e]) = written trace := by simp [written_append, hw]
  constructor
  · intro key join reference hj hid
    rw [Connected.handleReply_pendingJoin] at hj
    split at hj
    · cases hj
    · rw [hwritten]
      exact h.ownJoin hj ((howed _).mp hid).1
  · intro key reference tx hc
    rw [Connected.handleReply_pendingCall] at hc
    split at hc
    · cases hc
    · rw [hwritten]
      exact h.callWritten hc
  · intro key reference tx hid hc
    obtain ⟨hid, hne⟩ := (howed _).mp hid
    rw [Connected.handleReply_pendingCall, if_neg (fun hk => hne hk.2.symm)]
    exact h.callPending hid (hwritten ▸ hc)

/-- The reply to an owed push resolves the request that the push was written for. -/
theorem Matches.resolves {r : Reply} {o : Origin} (h : Matches trace c)
    (hdrawn : ((written trace).map (fun x => x.1.reference)).Nodup)
    (howed : r.id ∈ owed trace) (hwritten : (r.id, o) ∈ written trace)
    (hbefore : e.before = .connected c) :
    (c.handleReply r fresh).2.filterMap Effect.resolves? = e.resolution r.key o := by
  have unique : ∀ o', (r.id, o') ∈ written trace → o' = o := by
    intro o' ho'
    exact (Prod.mk.inj (List.inj_on_of_nodup_map hdrawn ho' hwritten rfl)).2
  have hpending : e.pendingJoin r.key = c.pendingJoin r.key := by
    simp [Entry.pendingJoin, hbefore]
  rcases c.handleReply_cases r fresh with ⟨join, hj, hh⟩ | ⟨hj, tx, hc, hh⟩ | ⟨hj, hc, hh⟩
  · -- the pending join is the one whose push was answered
    obtain rfl := unique _ (h.ownJoin hj howed)
    obtain ⟨result, hr, hres⟩ := (c.removeJoin r.key).2.finishJoin_effects r join fresh
    rw [hh, hr]
    simp only [Entry.resolution, hpending, hj, Option.any_some, beq_self_eq_true, ↓reduceIte]
    rcases hres with ⟨joined, _, rfl⟩ | ⟨_, rfl⟩ <;> rfl
  · obtain rfl := unique _ (h.callWritten hc)
    rw [hh]
    simp only [Entry.resolution]
    cases r.status <;> rfl
  · rw [hh]
    cases o with
    | call tx =>
        have hsome := h.callPending howed hwritten
        rw [hc] at hsome
        cases hsome
    | join tx => simp [Entry.resolution, hpending, hj]
    | _ => rfl

theorem ConnectedIteration.broadcastsConnected (h : ConnectedIteration now fresh c input iteration) :
    Entry.broadcastsConnected ⟨now, before, input, (World.outcome iteration).2⟩ = false := by
  by_contra hb
  have hb : Entry.broadcastsConnected ⟨now, before, input, (World.outcome iteration).2⟩ = true := by
    simpa using hb
  obtain ⟨effect, hmem, heffect⟩ := List.any_eq_true.mp hb
  cases h.cause hmem with
  | quiet hq =>
      have hq := hq.quiet
      cases effect <;> simp [Effect.quiet] at hq heffect
  | connected hs => rcases hs with hs | hs <;> cases hs
  | _ => simp at heffect

theorem ReferencesDrawn.push_ne {id : PushId} {o : Origin} (h : ReferencesDrawn w)
    (hfresh : w.uuidFresh input = true) (hpush : input.push? = some (id, o)) :
    ∀ x ∈ written w.trace, x.1 ≠ id := by
  rintro x hx rfl
  obtain ⟨uuid, huuid, href⟩ := Input.push?_reference hpush
  obtain ⟨uuid', hmem, href'⟩ := h.known _ (List.mem_map_of_mem hx)
  rw [href'] at href
  obtain rfl := Reference.new_injective href
  exact uuidFresh_iff.mp hfresh _ huuid hmem

theorem Matches.writeOther {id : PushId} {o : Origin} (h : Matches trace c)
    (hw : e.written = [(id, o)]) (hr : e.reply? = none) (hb : e.broadcastsConnected = false)
    (hnew : ∀ x ∈ written trace, x.1 ≠ id) (hnone : c.pendingJoin id.key = none)
    (hcall : ∀ tx, o ≠ .call tx)
    (hjoin' : ∀ key, c'.pendingJoin key = c.pendingJoin key)
    (hcall' : ∀ key reference, c'.pendingCall key reference = c.pendingCall key reference) :
    Matches (trace ++ [e]) c' := by
  refine h.write hw hr hb hnew ?_ (fun _ _ _ => hcall' _ _) ?_
  · intro key join hj
    rw [hjoin'] at hj
    refine .inl ⟨?_, hj⟩
    rintro rfl
    rw [hnone] at hj
    cases hj
  · intro tx
    rw [hcall']
    exact ⟨fun hc => absurd rfl (hnew _ (h.callWritten hc)), fun ho => absurd ho (hcall tx)⟩

theorem Matches.join {j : Join} {uuid : Uuid} (h : Matches trace c)
    (hw : e.written = [(⟨j.key, Reference.new uuid⟩, .join j.joinedTx)]) (hr : e.reply? = none)
    (hb : e.broadcastsConnected = false)
    (hnew : ∀ x ∈ written trace, x.1 ≠ ⟨j.key, Reference.new uuid⟩)
    (halone : ∀ id ∈ owed trace, id.key ≠ j.key) :
    Matches (trace ++ [e]) { c with
      joinByReferenceByTopic := c.joinByReferenceByTopic.put j.topic j.joinReference j
      joinTimeouts := c.joinTimeouts ++ [⟨j.deadline, j.key, j.joinedTx⟩] } := by
  refine h.write hw hr hb hnew ?_ (fun _ _ _ => rfl) ?_
  · intro key join hj
    rw [Connected.joined_pendingJoin] at hj
    split at hj
    · rename_i hkey
      obtain rfl := Option.some.inj hj
      exact .inr ⟨hkey, rfl, halone⟩
    · exact .inl ⟨‹_›, hj⟩
  · intro tx
    have hnone : c.pendingCall j.key (Reference.new uuid) ≠ some tx :=
      fun hc => hnew _ (h.callWritten hc) rfl
    constructor
    · intro hc
      exact absurd hc hnone
    · intro ho
      cases ho

theorem Matches.call {k : Call} {uuid : Uuid} (h : Matches trace c)
    (hw : e.written = [(⟨k.key, Reference.new uuid⟩, .call k.replyTx)]) (hr : e.reply? = none)
    (hb : e.broadcastsConnected = false)
    (hnew : ∀ x ∈ written trace, x.1 ≠ ⟨k.key, Reference.new uuid⟩)
    (hnone : c.pendingJoin k.key = none) :
    Matches (trace ++ [e]) { c with
      replyTxByReferenceByJoinReferenceByTopic :=
        c.replyTxByReferenceByJoinReferenceByTopic.put k.topic k.joinReference
          (Reference.new uuid) k.replyTx } := by
  refine h.write hw hr hb hnew ?_ ?_ ?_
  · intro key join hj
    have hj : c.pendingJoin key = some join := hj
    refine .inl ⟨?_, hj⟩
    rintro rfl
    rw [hnone] at hj
    cases hj
  · intro key reference hne
    rw [Connected.called_pendingCall, if_neg]
    rintro ⟨rfl, rfl⟩
    exact hne rfl
  · intro tx
    simp [Connected.called_pendingCall]

theorem Matches.broadcast {b : Broadcast} (h : Matches trace c) (hw : e.written = [])
    (hr : e.reply? = none) (hb : e.broadcastsConnected = false) :
    Matches (trace ++ [e]) (c.handleBroadcast b).1 := by
  obtain ⟨map, hmap⟩ := c.handleBroadcast_cases b
  rw [hmap]
  exact h.unchanged hw hr hb (fun _ _ hj => hj) (fun _ _ => rfl)

theorem Matches.timedOut {key : JoinKey} {timers : List JoinTimeout} (h : Matches trace c)
    (hw : e.written = []) (hr : e.reply? = none) (hb : e.broadcastsConnected = false) :
    Matches (trace ++ [e]) (Connected.joinTimedOut { c with joinTimeouts := timers } key).1 := by
  rw [Connected.joinTimedOut_fst]
  refine h.unchanged hw hr hb ?_ (by simp; intros; rfl)
  intro key' join hj
  rw [Connected.removeJoin_pendingJoin] at hj
  split at hj
  · cases hj
  · exact hj

theorem leave_written {l : Leave} {uuid : Uuid} {senders : Option JoinedChannelSenders} :
    ([Effect.write (leaveMessage l uuid) (.leave l.ticket)]
      ++ (senders.map fun senders => Effect.memberLeftTx senders.left).toList
      ++ [Effect.leftTx l.leftTx (.ok ())]).filterMap Effect.written? =
        [(⟨l.key, Reference.new uuid⟩, .leave l.ticket)] := by
  cases senders <;> rfl

/-- An iteration that keeps the connection keeps its match, under the condition on what is
written. -/
theorem Matches.next {effects : List Effect} (h : Matches w.trace c)
    (htask : w.task = .selecting (.connected c)) (hdrawn : ReferencesDrawn w)
    (hfresh : w.uuidFresh input = true) (hok : joinsAlone w (.select input) = true)
    (hiter : ConnectedIteration w.now w.fresh c input (.next (.connected c') effects)) :
    Matches (w.trace ++ [⟨w.now, .connected c, input, effects⟩]) c' := by
  have hb : Entry.broadcastsConnected ⟨w.now, .connected c, input, effects⟩ = false :=
    hiter.broadcastsConnected
  have hw : effects.filterMap Effect.written? = [] ∨
      ∃ x, input.push? = some x ∧ effects.filterMap Effect.written? = [x] := hiter.written
  have hsilent : input.push? = none →
      Entry.written ⟨w.now, .connected c, input, effects⟩ = [] := by
    intro hpush
    simpa [Entry.written, hpush] using hw
  have hnew : ∀ {id o}, input.push? = some (id, o) → ∀ x ∈ written w.trace, x.1 ≠ id :=
    fun hpush => hdrawn.push_ne hfresh hpush
  -- a push that is for no join is written while no join of its channel is pending
  have alone : ∀ {id o}, input.push? = some (id, o) → (∀ tx, o ≠ .join tx) →
      c.pendingJoin id.key = none := by
    intro id o hpush ho
    simp only [joinsAlone, hpush, Task.connection, htask] at hok
    cases o <;> first | exact absurd rfl (ho _) | simpa using hok
  cases hiter with
  | quiet heartbeat reference hr hq =>
      have hreply := Input.reply?_of_silent (Input.silent_of_passive hr)
      refine h.unchanged ?_ hreply hb (fun _ _ hj => hj) (fun _ _ => rfl)
      exact List.filterMap_eq_nil_iff.mpr fun f hf => Effect.written?_of_quiet (hq f hf).quiet
  | spawned uuid => exact h.unchanged rfl rfl hb (fun _ _ hj => hj) (fun _ _ => rfl)
  | reply r hd => exact h.reply (hsilent rfl) (by simp [Entry.reply?, Input.reply?, hd]) hb
  | broadcast b hd =>
      exact h.broadcast (hsilent rfl) (by simp [Entry.reply?, Input.reply?, hd]) hb
  | join j uuid =>
      exact h.join rfl rfl hb (hnew rfl) (by simpa [joinsAlone, Input.push?] using hok)
  | leave l uuid =>
      exact h.writeOther leave_written rfl hb (hnew rfl) (alone rfl (by intro _ h; cases h))
        (by intro _ h; cases h) (by simp) (by simp)
  | call k uuid => exact h.call rfl rfl hb (hnew rfl) (alone rfl (by intro _ h; cases h))
  | cast k uuid =>
      exact h.writeOther rfl rfl hb (hnew rfl) (alone rfl (by intro _ h; cases h))
        (by intro _ h; cases h) (fun _ => rfl) (fun _ _ => rfl)
  | timedOut index timer htimer hdue => exact h.timedOut (hsilent rfl) rfl hb
  | lost d hr hstate hq => exact absurd hstate.symm lostState_ne_connected

/-- What holds of every run under the assumption on the server and the condition. -/
structure Correlated (w : World) : Prop where
  owedWritten : ∀ id ∈ owed w.trace, ∃ origin, (id, origin) ∈ written w.trace
  connection : ∀ c, w.task.state = some (.connected c) → Matches w.trace c
  reply : ∀ e ∈ w.trace, ∀ r, e.reply? = some r →
    ∃ origin, (r.id, origin) ∈ written w.trace ∧ e.resolved = e.resolution r.key origin

theorem owedWritten_append
    (h : ∀ id ∈ owed trace, ∃ origin, (id, origin) ∈ written trace) :
    ∀ id ∈ owed (trace ++ [e]), ∃ origin, (id, origin) ∈ written (trace ++ [e]) := by
  intro id hid
  simp only [written_append, List.mem_append]
  rcases mem_owed_append.mp hid with ⟨_, hid, _⟩ | ⟨origin, ho⟩
  · obtain ⟨origin, ho⟩ := h id hid
    exact ⟨origin, .inl ho⟩
  · exact ⟨origin, .inr ho⟩

theorem Correlated.record (h : Correlated w)
    (hconnection : ∀ c, (World.outcome iteration).1.state = some (.connected c) →
      Matches (w.record before input iteration).trace c)
    (hreply : ∀ r, input.reply? = some r → ∃ origin, (r.id, origin) ∈ written w.trace ∧
      (World.outcome iteration).2.filterMap Effect.resolves? =
        Entry.resolution ⟨w.now, before, input, (World.outcome iteration).2⟩ r.key origin) :
    Correlated (w.record before input iteration) where
  owedWritten := by
    rw [record_trace]
    exact owedWritten_append h.owedWritten
  connection := hconnection
  reply := by
    intro e he r hr
    rw [record_trace, written_append]
    rcases List.mem_append.mp he with he | he
    · obtain ⟨origin, ho, hres⟩ := h.reply e he r hr
      exact ⟨origin, List.mem_append_left _ ho, hres⟩
    · obtain rfl := List.mem_singleton.mp he
      obtain ⟨origin, ho, hres⟩ := hreply r hr
      exact ⟨origin, List.mem_append_left _ ho, hres⟩

/-- What a reply resolves is what its push was written for. -/
theorem Matches.resolves_reply {r : Reply} {origin : Origin} (h : Matches trace c)
    (hiter : ConnectedIteration now fresh c input iteration)
    (hdistinct : ((written trace).map fun x => x.1.reference).Nodup) (hr : input.reply? = some r)
    (howed : r.id ∈ owed trace) (hwritten : (r.id, origin) ∈ written trace) :
    (World.outcome iteration).2.filterMap Effect.resolves? =
      Entry.resolution ⟨now, .connected c, input, (World.outcome iteration).2⟩ r.key origin := by
  cases hiter with
  | reply r' hd =>
      obtain rfl : r' = r := by simpa [Input.reply?, hd] using hr
      exact h.resolves hdistinct howed hwritten rfl
  | quiet heartbeat reference hp hq =>
      rw [Input.reply?_of_silent (Input.silent_of_passive hp)] at hr
      cases hr
  | lost d hs hstate hq => rw [Input.reply?_of_silent hs] at hr; cases hr
  | panic hr' => rw [hr'] at hr; cases hr
  | broadcast b hd => simp [Input.reply?, hd] at hr
  | push p pushTx hd hp => simp [Input.reply?, hd] at hr
  | _ => cases hr

/-- A new connection begins with nothing owed. -/
theorem UnconnectedIteration.matches (hs : ∀ c, before ≠ .connected c)
    (hiter : UnconnectedIteration w.now before input iteration)
    (hc' : (World.outcome iteration).1.state = some (.connected c')) :
    Matches (w.record before input iteration).trace c' := by
  have howed : (Entry.broadcastsConnected
      ⟨w.now, before, input, (World.outcome iteration).2⟩) = true →
      owed (w.record before input iteration).trace = [] := by
    intro hb
    simp [owed, hb, Entry.written, hiter.written]
  cases hiter with
  | quiet | spawned | disconnect => exact absurd (by simpa [World.outcome] using hc') (hs c')
  | connected hs hq =>
      obtain rfl : Connected.new w.now _ = c' := by simpa [World.outcome] using hc'
      exact .start (howed (by simp [Entry.broadcastsConnected, World.outcome]))
  | reconnected hs hdue =>
      obtain rfl : Connected.new w.now _ = c' := by simpa [World.outcome] using hc'
      exact .start (howed (by simp [Entry.broadcastsConnected, World.outcome]))
  | connectFailed | reconnectFailed | shutdown => simp [World.outcome] at hc'
  | exit | panic => cases hc'

theorem correlated_of_run {strategy : Option (Nat → Duration)} {ls : List Label}
    (h : Run (machine strategy) (fun w l => serverEchoes w l && joinsAlone w l) World.init ls w) :
    Correlated w := by
  refine h.invariant_of_run ?_ ?_
  · exact ⟨by simp [World.init, owed], by simp [World.init], by simp [World.init]⟩
  intro ls w label w' hrun ih hok hstep
  have hdrawn := referencesDrawn_of_run hrun
  simp only [Bool.and_eq_true] at hok
  obtain ⟨hserver, hok⟩ := hok
  cases step_cases hstep with
  | elapse duration => exact ⟨ih.owedWritten, ih.connection, ih.reply⟩
  | @connected c input iteration htask hfresh hiter =>
      have hmatches := ih.connection c (by rw [htask]; rfl)
      apply ih.record
      · intro c' hc'
        cases iteration with
        | next state effects =>
            obtain rfl : state = .connected c' := by simpa [World.outcome] using hc'
            exact hmatches.next htask hdrawn hfresh hok hiter
        | push c₁ pushTx push =>
            obtain rfl : c₁ = c' := by simpa [World.outcome, Task.state] using hc'
            cases hiter with
            | push p pushTx hd hp =>
                exact hmatches.unchanged rfl (by simp [Entry.reply?, Input.reply?, hd]) rfl
                  (fun _ _ hj => hj) (fun _ _ => rfl)
        | exit result => cases hc'
        | panic => cases hc'
      · intro r hr
        have howed : r.id ∈ owed w.trace := by simpa [serverEchoes, hr] using hserver
        obtain ⟨origin, ho⟩ := ih.owedWritten r.id howed
        exact ⟨origin, ho, hmatches.resolves_reply hiter hdrawn.2 hr howed ho⟩
  | @unconnected state input iteration htask hs hfresh hiter =>
      apply ih.record
      · intro c' hc'
        exact hiter.matches hs hc'
      · intro r hr
        rw [hiter.reply?_eq_none] at hr
        cases hr
  | pushed htask =>
      refine ⟨ih.owedWritten, ?_, ih.reply⟩
      intro c hc
      exact ih.connection c (by rw [htask]; exact hc)
  | publish htask =>
      refine ⟨ih.owedWritten, ?_, ih.reply⟩
      intro c hc
      exact ih.connection c (by rw [htask]; exact hc)

end Socket

end PhoenixChannels
