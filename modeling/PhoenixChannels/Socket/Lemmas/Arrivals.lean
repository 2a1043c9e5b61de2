import Mathlib.Data.List.Induction
import PhoenixChannels.Socket.Lemmas.Memberships

/-!
# Messages for the members of channels

The membership of a channel, as the trace tells it: the iteration that finished its join, and what
the web socket has given for the channel since.
-/

namespace PhoenixChannels.Socket

open Machine

/-! ## Reading a trace -/

/-- The message that the web socket gave, where it could be decoded. -/
def Input.message? : Input → Option Message
  | socketResult (.ok received) _ =>
      match Message.decode received with
      | some (.ok message) => some message
      | _ => none
  | _ => none

def Input.pushed? (input : Input) : Option Push :=
  match input.message? with
  | some (.push push) => some push
  | _ => none

def Input.broadcast? (input : Input) : Option Broadcast :=
  match input.message? with
  | some (.broadcast broadcast) => some broadcast
  | _ => none

def Effect.receivers? : Effect → Option JoinedChannelReceivers
  | joinedTx _ (.ok receivers) => some receivers
  | _ => none

/-- The broadcast that is sent into `tx`. -/
def Effect.broadcast? (tx : TxId) : Effect → Option Broadcast
  | broadcastTx tx' broadcast => if tx' = tx then some broadcast else none
  | _ => none

namespace Entry

/-- The receivers that were given to the channel whose join was finished. -/
def receivers? (e : Entry) : Option JoinedChannelReceivers := e.effects.findSome? Effect.receivers?

/-- The push that `handle_push` sends, with the sender. -/
def handed? (e : Entry) : Option (TxId × Push) :=
  match e.before, e.input.pushed? with
  | .connected c, some push => (c.pushTx push).map fun tx => (tx, push)
  | _, _ => none

end Entry

/-- The position of the iteration that made a channel a member on the present connection. -/
def joinedAt (key : JoinKey) (trace : List Entry) : Option Nat :=
  trace.zipIdx.foldl (fun joined (e, i) =>
    if e.broadcastsConnected then none
    else if e.joined? = some key then some i
    else if e.left? = some key then none
    else joined) none

variable {strategy : Option (Nat → Duration)} {ok : World → Label → Prop} {ls : List Label}
variable {w w' : World} {input : Input} {c c' : Connected} {e : Entry} {trace : List Entry}
variable {key : JoinKey} {fresh : TxId} {tx : TxId} {i : Nat} {reply : Reply}

theorem joinedAt_append : joinedAt key (trace ++ [e]) =
    if e.broadcastsConnected then none
    else if e.joined? = some key then some trace.length
    else if e.left? = some key then none
    else joinedAt key trace := by
  simp [joinedAt, List.zipIdx_append]

theorem fresh_of_run (h : Run (machine strategy) ok World.init ls w) :
    w.fresh = w.trace.length := by
  refine h.invariant (I := fun w => w.fresh = w.trace.length) rfl ?_
  intro w label w' ih _ hs
  cases step_cases hs with
  | elapse | pushed | publish => exact ih
  | connected | unconnected => simp [World.record, ih]

/-! ## What an iteration does to the members -/

/-- An iteration that keeps the connection. -/
inductive ConnectionChange (fresh : TxId) (c c' : Connected) (e : Entry) : Prop
  | kept : (∀ key, c'.joinedChannelTxs key = c.joinedChannelTxs key) →
      c'.broadcastByTopic = c.broadcastByTopic → e.joined? = none → e.left? = none →
      e.input.broadcast? = none → (∀ tx, e.effects.filterMap (Effect.broadcast? tx) = []) →
      ConnectionChange fresh c c' e
  | broadcast {b : Broadcast} : e.input.broadcast? = some b → c' = (c.handleBroadcast b).1 →
      e.effects = (c.handleBroadcast b).2 → ConnectionChange fresh c c' e
  | joined {reply : Reply} {join : Join} : c.pendingJoin reply.key = some join →
      reply.status = .ok → e.joined? = some reply.key → e.input.broadcast? = none →
      c' = ((c.removeJoin reply.key).2.finishJoin reply join fresh).1 →
      e.effects = ((c.removeJoin reply.key).2.finishJoin reply join fresh).2 →
      ConnectionChange fresh c c' e
  | left {leave : Leave} : c' = (c.removeJoinedChannelTxs leave.key).2 →
      e.left? = some leave.key → e.joined? = none → e.input.broadcast? = none →
      (∀ tx, e.effects.filterMap (Effect.broadcast? tx) = []) → ConnectionChange fresh c c' e

theorem message_cases {m : Message} (h : input.message? = some m) :
    ∃ received sent, input = .socketResult (.ok received) sent ∧
      Message.decode received = some (.ok m) := by
  unfold Input.message? at h
  split at h
  · split at h
    · cases h
      exact ⟨_, _, rfl, ‹_›⟩
    · cases h
  · cases h

theorem select_message {now : Instant} {m : Message} {iteration : Iteration}
    (h : select strategy now fresh (.connected c) input = some iteration)
    (hm : input.message? = some m) : iteration = handleMessage now c m fresh := by
  obtain ⟨received, sent, rfl, hdecode⟩ := message_cases hm
  simp only [select, Option.some.injEq] at h
  subst h
  cases received with
  | text | binary => simp only [handleSocketResult, handleSocketMessage, hdecode, handleDecoded]
  | ping | pong | close | frame => cases hdecode

theorem reply?_of_message (h : input.message? = some (.reply reply)) : input.reply? = some reply := by
  obtain ⟨received, sent, rfl, hdecode⟩ := message_cases h
  simp [Input.reply?, hdecode]

theorem broadcast?_eq_none (h : ∀ b, input.message? ≠ some (.broadcast b)) :
    input.broadcast? = none := by
  unfold Input.broadcast?
  split
  · exact absurd ‹_› (h _)
  · rfl

theorem Entry.joined?_eq_none (h : ∀ effect ∈ e.effects, effect.finishesJoin = false) :
    e.joined? = none := by
  rw [Entry.joined?, List.any_eq_false.mpr fun effect hmem => by simp [h effect hmem]]
  rfl

theorem Entry.left?_eq_none (h : e.written = []) : e.left? = none := by simp [Entry.left?, h]

/-- An iteration whose effects say nothing to members leaves them as they are. -/
theorem ConnectionChange.silent (hsenders : ∀ key, c'.joinedChannelTxs key = c.joinedChannelTxs key)
    (hbroadcasts : c'.broadcastByTopic = c.broadcastByTopic)
    (hmessage : ∀ b, e.input.message? ≠ some (.broadcast b))
    (heffects : ∀ effect ∈ e.effects, effect.finishesJoin = false ∧
      (∀ tx, effect.broadcast? tx = none))
    (hleft : e.left? = none) : ConnectionChange fresh c c' e :=
  .kept hsenders hbroadcasts (Entry.joined?_eq_none fun effect hmem => (heffects effect hmem).1)
    hleft (broadcast?_eq_none hmessage)
    fun tx => List.filterMap_eq_nil_iff.mpr fun effect hmem => (heffects effect hmem).2 tx

theorem Effect.silent_of_quiet {effect : Effect} (h : effect.quiet = true) :
    effect.finishesJoin = false ∧ (∀ tx, effect.broadcast? tx = none) ∧ effect.written? = none := by
  cases effect with
  | write message origin =>
      exact ⟨rfl, fun _ => rfl, Effect.written?_of_quiet h⟩
  | pong | close | statusError | connectedTx => exact ⟨rfl, fun _ => rfl, rfl⟩
  | _ => cases h

/-- The handler of a message does one of these things to the members. -/
theorem handleMessage_change {now : Instant} {m : Message} {iteration : Iteration}
    (hm : input.message? = some m) (h : handleMessage now c m fresh = iteration)
    (hc' : (World.outcome iteration).1.connection = some c') :
    ConnectionChange fresh c c' ⟨now, .connected c, input, (World.outcome iteration).2⟩ := by
  cases m with
  | control control =>
      simp only [handleMessage] at h
      split at h <;> subst h <;> cases hc' <;>
        exact .silent (fun _ => rfl) rfl (by simp [hm]) (by simp [World.outcome]) rfl
  | push push =>
      simp only [handleMessage] at h
      split at h <;> subst h <;> cases hc' <;>
        exact .silent (fun _ => rfl) rfl (by simp [hm]) (by simp [World.outcome]) rfl
  | broadcast b =>
      subst h
      cases hc'
      exact .broadcast (by simp [Input.broadcast?, hm]) rfl rfl
  | reply r =>
      simp only [handleMessage] at h
      split at h
      · subst h
        cases hc'
        exact .silent (fun _ => rfl) rfl (by simp [hm]) (by simp [World.outcome]) rfl
      · subst h
        cases hc'
        rcases c.handleReply_cases r fresh with ⟨join, hjoin, h⟩ | ⟨_, tx, _, h⟩ | ⟨_, _, h⟩
        · rw [h]
          cases hstatus : r.status with
          | ok =>
              refine .joined hjoin hstatus ?_ (broadcast?_eq_none (by simp [hm])) rfl rfl
              simp [Entry.joined?, Entry.reply?, reply?_of_message hm, World.outcome,
                Connected.finishJoin, hstatus, Effect.finishesJoin]
          | error =>
              have hfinish : (c.removeJoin r.key).2.finishJoin r join fresh =
                  ((c.removeJoin r.key).2,
                    [.joinedTx join.joinedTx (.error (.rejected r.payload))]) := by
                simp [Connected.finishJoin, hstatus]
              rw [hfinish]
              exact .silent (fun _ => rfl) rfl (by simp [hm])
                (by simp [World.outcome, Effect.finishesJoin, Effect.broadcast?]) rfl
        · rw [h]
          exact .silent (fun _ => rfl) rfl (by simp [hm])
            (by simp [World.outcome, Effect.finishesJoin, Effect.broadcast?]) rfl
        · rw [h]
          exact .silent (fun _ => rfl) rfl (by simp [hm]) (by simp [World.outcome]) rfl

/-- An iteration without a message does one of these things as well. -/
theorem ConnectedIteration.connectionChange {now : Instant} {effects : List Effect}
    (h : ConnectedIteration now fresh c input (.next (.connected c') effects))
    (hnone : input.message? = none) :
    ConnectionChange fresh c c' ⟨now, .connected c, input, effects⟩ := by
  have hmessage : ∀ b, input.message? ≠ some (.broadcast b) := by simp [hnone]
  cases h with
  | quiet heartbeat reference hr hq =>
      have hsilent := fun effect hmem => Effect.silent_of_quiet (hq effect hmem).quiet
      exact .silent (fun _ => rfl) rfl hmessage
        (fun effect hmem => ⟨(hsilent effect hmem).1, (hsilent effect hmem).2.1⟩)
        (Entry.left?_eq_none (List.filterMap_eq_nil_iff.mpr fun effect hmem =>
          (hsilent effect hmem).2.2))
  | spawned uuid =>
      exact .silent (fun _ => rfl) rfl hmessage (by simp [Effect.finishesJoin, Effect.broadcast?]) rfl
  | reply r hd | broadcast b hd => simp [Input.message?, hd] at hnone
  | join j uuid =>
      exact .silent (fun _ => rfl) rfl hmessage (by simp [Effect.finishesJoin, Effect.broadcast?]) rfl
  | leave l uuid =>
      have hnothing : ∀ effect ∈ [Effect.write (leaveMessage l uuid) (.leave l.ticket)]
            ++ ((c.removeJoinedChannelTxs l.key).1.map
              (fun senders => Effect.memberLeftTx senders.left)).toList
            ++ [.leftTx l.leftTx (.ok ())],
          effect.finishesJoin = false ∧ (∀ tx, effect.broadcast? tx = none) := by
        intro effect hmem
        simp only [List.mem_append, List.mem_singleton, Option.mem_toList,
          Option.map_eq_some_iff] at hmem
        rcases hmem with (rfl | ⟨_, _, rfl⟩) | rfl <;> exact ⟨rfl, fun _ => rfl⟩
      refine .left rfl rfl (Entry.joined?_eq_none fun effect hmem => (hnothing effect hmem).1) rfl ?_
      exact fun tx => List.filterMap_eq_nil_iff.mpr fun effect hmem => (hnothing effect hmem).2 tx
  | call k uuid | cast k uuid =>
      exact .silent (fun _ => rfl) rfl hmessage (by simp [Effect.finishesJoin, Effect.broadcast?]) rfl
  | timedOut index timer htimer hdue =>
      refine .silent ?_ ?_ hmessage ?_ ?_
      · intro key
        rw [Connected.joinTimedOut_fst, Connected.removeJoin_joinedChannelTxs]
        rfl
      · rw [Connected.joinTimedOut_fst]
        rfl
      · intro effect hmem
        simp only [Connected.joinTimedOut_effects, Option.mem_toList, Option.map_eq_some_iff] at hmem
        obtain ⟨_, _, rfl⟩ := hmem
        exact ⟨rfl, fun _ => rfl⟩
      · refine Entry.left?_eq_none (List.filterMap_eq_nil_iff.mpr fun effect hmem => ?_)
        simp only [Connected.joinTimedOut_effects, Option.mem_toList, Option.map_eq_some_iff] at hmem
        obtain ⟨_, _, rfl⟩ := hmem
        rfl
  | lost d hr hstate hq => exact absurd hstate.symm lostState_ne_connected

/-- How a connection comes out of an iteration. -/
inductive ConnectedChange (w w' : World) (input : Input) (c' : Connected) : Prop
  | kept {c : Connected} {e : Entry} : w.task = .selecting (.connected c) →
      w'.trace = w.trace ++ [e] → e.before = .connected c → e.input = input →
      e.broadcastsConnected = false → ConnectionChange w.fresh c c' e →
      ConnectedChange w w' input c'
  | fresh {e : Entry} {now : Instant} {timeout : Duration} : w'.trace = w.trace ++ [e] →
      e.broadcastsConnected = true → c' = Connected.new now timeout → ConnectedChange w w' input c'

theorem select_change (h : (machine strategy).step w (.select input) = some w')
    (hc' : w'.task.connection = some c') : ConnectedChange w w' input c' := by
  obtain ⟨state, iteration, htask, hselect, rfl⟩ := step_select h
  cases state with
  | connected c =>
      have hiter := select_connected hselect
      refine .kept htask rfl rfl rfl hiter.broadcastsConnected ?_
      cases hm : input.message? with
      | some m => exact handleMessage_change hm (select_message hselect hm).symm hc'
      | none =>
          cases iteration with
          | next state effects =>
              obtain rfl : state = .connected c' := by
                simpa [World.outcome, Task.connection_eq_some] using hc'
              exact hiter.connectionChange hm
          | push c₁ tx push =>
              cases hiter with
              | push p tx hd => simp [Input.message?, hd] at hm
          | exit | panic => cases hc'
  | _ =>
      rw [record_task, Task.connection_eq_some] at hc'
      cases select_unconnected (by simp) hselect with
      | connected =>
          obtain rfl : Connected.new w.now _ = c' := by simpa [World.outcome] using hc'
          exact .fresh rfl (by simp [Entry.broadcastsConnected, World.outcome]) rfl
      | reconnected =>
          obtain rfl : Connected.new w.now _ = c' := by simpa [World.outcome] using hc'
          exact .fresh rfl (by simp [Entry.broadcastsConnected, World.outcome]) rfl
      | _ => simp [World.outcome, Task.state] at hc'

/-! ## The members and their broadcasts -/

/-- All that was sent into a broadcast channel. -/
def broadcastsInto (tx : TxId) (trace : List Entry) : List Broadcast :=
  (trace.flatMap Entry.effects).filterMap (Effect.broadcast? tx)

/-- The broadcasts that the web socket gave for a topic. -/
def broadcastsOn (topic : Topic) (trace : List Entry) : List Broadcast :=
  (trace.filterMap fun e => e.input.broadcast?).filter fun b => b.topic = topic

@[simp] theorem broadcastsInto_append : broadcastsInto tx (trace ++ [e]) =
    broadcastsInto tx trace ++ e.effects.filterMap (Effect.broadcast? tx) := by
  simp [broadcastsInto]

@[simp] theorem broadcastsOn_append {topic : Topic} : broadcastsOn topic (trace ++ [e]) =
    broadcastsOn topic trace ++ e.input.broadcast?.toList.filter (fun b => b.topic = topic) := by
  cases h : e.input.broadcast? <;> simp [broadcastsOn, h]

/-- Who joined at the position `i` subscribed to the channel that gets all broadcasts of the topic. -/
structure Subscribed (trace : List Entry) (c : Connected) (topic : Topic) (i : Nat)
    (receivers : JoinedChannelReceivers) : Prop where
  made : ((trace)[i]?).bind Entry.receivers? = some receivers
  sender : (c.broadcastByTopic.lookup topic).map BroadcastSender.tx = some receivers.broadcast.tx
  le : receivers.broadcast.next ≤ (broadcastsInto receivers.broadcast.tx trace).length
  all : (broadcastsInto receivers.broadcast.tx trace).drop receivers.broadcast.next =
    broadcastsOn topic (trace.drop (i + 1))

/-- What a connection holds for its members, against what the trace tells. The channels that an
iteration makes are named by its position. -/
structure MembersKnown (trace : List Entry) (c : Connected) : Prop where
  senders {key : JoinKey} : c.joinedChannelTxs key = (joinedAt key trace).map fun i => ⟨i, i⟩
  old {topic : Topic} {sender : BroadcastSender} : c.broadcastByTopic.lookup topic = some sender →
    sender.tx < trace.length
  sent {topic : Topic} {sender : BroadcastSender} : c.broadcastByTopic.lookup topic = some sender →
    sender.sent = (broadcastsInto sender.tx trace).length
  distinct {topic topic' : Topic} {sender sender' : BroadcastSender} :
    c.broadcastByTopic.lookup topic = some sender →
    c.broadcastByTopic.lookup topic' = some sender' → sender.tx = sender'.tx → topic = topic'
  joined {key : JoinKey} {i : Nat} : joinedAt key trace = some i →
    ∃ receivers, Subscribed trace c key.topic i receivers

variable {topic : Topic} {receivers : JoinedChannelReceivers}

/-- A subscription goes on when its channel gets what the web socket gives for its topic. -/
theorem Subscribed.append (h : Subscribed trace c topic i receivers)
    (hsender : (c'.broadcastByTopic.lookup topic).map BroadcastSender.tx =
      (c.broadcastByTopic.lookup topic).map BroadcastSender.tx)
    (he : e.effects.filterMap (Effect.broadcast? receivers.broadcast.tx) =
      e.input.broadcast?.toList.filter (fun b => b.topic = topic)) :
    Subscribed (trace ++ [e]) c' topic i receivers := by
  obtain ⟨f, hf, hmade⟩ := Option.bind_eq_some_iff.mp h.made
  have hi : i < trace.length := (List.getElem?_eq_some_iff.mp hf).1
  constructor
  · rw [List.getElem?_append_left hi]
    exact h.made
  · exact hsender.trans h.sender
  · rw [broadcastsInto_append, List.length_append]
    exact Nat.le_add_right_of_le h.le
  · rw [broadcastsInto_append, List.drop_append_of_le_length h.le, h.all, he,
      List.drop_append_of_le_length hi, broadcastsOn_append]

/-- A subscription to the broadcasts of a topic leaves the topics their senders: the sender of the
topic is the one that was there, or a new one by the name of `fresh`. -/
structure Subscribes (fresh : TxId) (c c' : Connected) (topic : Topic) (sender : BroadcastSender) :
    Prop where
  found : c'.broadcastByTopic.lookup topic = some sender
  others : ∀ other ≠ topic, c'.broadcastByTopic.lookup other = c.broadcastByTopic.lookup other
  before : c.broadcastByTopic.lookup topic = some sender ∨
    c.broadcastByTopic.lookup topic = none ∧ sender = ⟨fresh, 0⟩

theorem finishJoin_ok (c : Connected) (join : Join) (fresh : TxId) (h : reply.status = .ok) :
    ∃ sender, Subscribes fresh c (c.finishJoin reply join fresh).1 join.topic sender ∧
      (c.finishJoin reply join fresh).2 = [.joinedTx join.joinedTx
        (.ok ⟨reply.payload, fresh, sender.subscribe, fresh⟩)] := by
  unfold Connected.finishJoin Connected.subscribeBroadcast
  simp only [h]
  cases hlookup : c.broadcastByTopic.lookup join.topic with
  | some sender => exact ⟨sender, ⟨hlookup, fun _ _ => rfl, .inl hlookup⟩, rfl⟩
  | none =>
      refine ⟨⟨fresh, 0⟩, ⟨by simp, fun topic htopic => ?_, .inr ⟨hlookup, rfl⟩⟩, rfl⟩
      simp [htopic]

section Subscribes

variable {sender sender' : BroadcastSender} {topic' : Topic}

theorem Subscribes.lookup_cases (h : Subscribes fresh c c' topic sender)
    (hlookup : c'.broadcastByTopic.lookup topic' = some sender') :
    c.broadcastByTopic.lookup topic' = some sender' ∨ topic' = topic ∧ sender' = ⟨fresh, 0⟩ := by
  by_cases htopic : topic' = topic
  · subst htopic
    cases h.found.symm.trans hlookup
    exact h.before.imp_right fun hnew => ⟨rfl, hnew.2⟩
  · rw [h.others topic' htopic] at hlookup
    exact .inl hlookup

theorem Subscribes.kept (h : Subscribes fresh c c' topic sender)
    (hlookup : c.broadcastByTopic.lookup topic' = some sender') :
    c'.broadcastByTopic.lookup topic' = some sender' := by
  by_cases htopic : topic' = topic
  · subst htopic
    rcases h.before with hold | ⟨hnone, _⟩
    · rw [h.found, ← hold, hlookup]
    · cases hnone.symm.trans hlookup
  · rw [h.others topic' htopic, hlookup]

/-- What holds of the senders of a connection holds of them when somebody has subscribed. -/
theorem MembersKnown.old_subscribes (h : MembersKnown trace c)
    (hs : Subscribes trace.length c c' topic sender)
    (hlookup : c'.broadcastByTopic.lookup topic' = some sender') : sender'.tx ≤ trace.length := by
  rcases hs.lookup_cases hlookup with hold | ⟨_, rfl⟩
  · exact Nat.le_of_lt (h.old hold)
  · exact Nat.le_refl _

theorem MembersKnown.sent_subscribes (h : MembersKnown trace c)
    (hunused : broadcastsInto trace.length trace = [])
    (hs : Subscribes trace.length c c' topic sender)
    (hlookup : c'.broadcastByTopic.lookup topic' = some sender') :
    sender'.sent = (broadcastsInto sender'.tx trace).length := by
  rcases hs.lookup_cases hlookup with hold | ⟨_, rfl⟩
  · exact h.sent hold
  · simp [hunused]

theorem MembersKnown.distinct_subscribes {topic₁ topic₂ : Topic} {sender₁ sender₂ : BroadcastSender}
    (h : MembersKnown trace c) (hs : Subscribes trace.length c c' topic sender)
    (h₁ : c'.broadcastByTopic.lookup topic₁ = some sender₁)
    (h₂ : c'.broadcastByTopic.lookup topic₂ = some sender₂) (heq : sender₁.tx = sender₂.tx) :
    topic₁ = topic₂ := by
  rcases hs.lookup_cases h₁ with hold₁ | ⟨rfl, rfl⟩ <;>
    rcases hs.lookup_cases h₂ with hold₂ | ⟨rfl, rfl⟩
  · exact h.distinct hold₁ hold₂ heq
  · exact absurd heq (Nat.ne_of_lt (h.old hold₁))
  · exact absurd heq (Nat.ne_of_gt (h.old hold₂))
  · rfl

end Subscribes

theorem joinedAt_unchanged (hb : e.broadcastsConnected = false) (hjoined : e.joined? = none)
    (hleft : e.left? = none) : joinedAt key (trace ++ [e]) = joinedAt key trace := by
  rw [joinedAt_append, hb, hjoined, hleft]
  simp

theorem joinedAt_joined {joinedKey : JoinKey} (hb : e.broadcastsConnected = false)
    (hjoined : e.joined? = some joinedKey) (hleft : e.left? = none) :
    joinedAt key (trace ++ [e]) =
      if key = joinedKey then some trace.length else joinedAt key trace := by
  rw [joinedAt_append, hb, hjoined, hleft]
  by_cases hk : key = joinedKey
  · simp [hk]
  · simp [hk, Ne.symm hk]

theorem MembersKnown.kept (h : MembersKnown trace c)
    (hat : ∀ key i, joinedAt key (trace ++ [e]) = some i → joinedAt key trace = some i)
    (hsenders : ∀ key, c'.joinedChannelTxs key = (joinedAt key (trace ++ [e])).map fun i => ⟨i, i⟩)
    (hmap : c'.broadcastByTopic = c.broadcastByTopic)
    (hunheard : ∀ b, e.input.broadcast? = some b → c.broadcastByTopic.lookup b.topic = none)
    (heffects : ∀ tx, e.effects.filterMap (Effect.broadcast? tx) = []) :
    MembersKnown (trace ++ [e]) c' where
  senders := hsenders _
  old hlookup := by
    rw [hmap] at hlookup
    rw [List.length_append]
    exact Nat.lt_add_right _ (h.old hlookup)
  sent hlookup := by
    rw [hmap] at hlookup
    rw [broadcastsInto_append, heffects, List.append_nil]
    exact h.sent hlookup
  distinct hlookup hlookup' := by
    rw [hmap] at hlookup hlookup'
    exact h.distinct hlookup hlookup'
  joined {key i} hi := by
    obtain ⟨receivers, hsubscribed⟩ := h.joined (hat key i hi)
    obtain ⟨sender, hlookup, _⟩ := Option.map_eq_some_iff.mp hsubscribed.sender
    refine ⟨receivers, hsubscribed.append (by rw [hmap]) ?_⟩
    rw [heffects]
    cases hbroadcast : e.input.broadcast? with
    | none => rfl
    | some b =>
        have hne : b.topic ≠ key.topic := by
          intro htopic
          rw [← htopic, hunheard b hbroadcast] at hlookup
          cases hlookup
        simp [hne]

/-- The channel of a topic gets the broadcast. -/
theorem MembersKnown.heard {b : Broadcast} {sender : BroadcastSender} (h : MembersKnown trace c)
    (hat : ∀ key, joinedAt key (trace ++ [e]) = joinedAt key trace)
    (hlookup : c.broadcastByTopic.lookup b.topic = some sender)
    (hbroadcast : e.input.broadcast? = some b) (heffects : e.effects = [.broadcastTx sender.tx b]) :
    MembersKnown (trace ++ [e]) { c with
      broadcastByTopic :=
        c.broadcastByTopic.insert b.topic { sender with sent := sender.sent + 1 } } := by
  have hcases : ∀ {topic sender'}, (c.broadcastByTopic.insert b.topic
        { sender with sent := sender.sent + 1 }).lookup topic = some sender' →
      ∃ old, c.broadcastByTopic.lookup topic = some old ∧ old.tx = sender'.tx ∧
        sender'.sent = old.sent + if topic = b.topic then 1 else 0 := by
    intro topic sender' hsender'
    rw [Dict.lookup_insert_eq] at hsender'
    split at hsender'
    · rename_i htopic
      cases hsender'
      exact ⟨sender, htopic ▸ hlookup, rfl, by simp [htopic]⟩
    · exact ⟨sender', hsender', rfl, by simp [*]⟩
  refine ⟨by intro key; rw [hat]; exact h.senders, ?_, ?_, ?_, ?_⟩
  · intro topic sender' hsender'
    obtain ⟨old, hold, htx, _⟩ := hcases hsender'
    rw [List.length_append, ← htx]
    exact Nat.lt_add_right _ (h.old hold)
  · intro topic sender' hsender'
    obtain ⟨old, hold, htx, hsent⟩ := hcases hsender'
    rw [broadcastsInto_append, heffects, List.length_append, ← htx, ← h.sent hold, hsent]
    split
    · rename_i htopic
      rw [htopic, hlookup] at hold
      cases hold
      simp [Effect.broadcast?]
    · rename_i htopic
      have hne : sender.tx ≠ old.tx := fun heq => htopic (h.distinct hlookup hold heq).symm
      simp [Effect.broadcast?, hne]
  · intro topic topic' sender₁ sender₂ h₁ h₂ heq
    obtain ⟨old₁, hold₁, htx₁, _⟩ := hcases h₁
    obtain ⟨old₂, hold₂, htx₂, _⟩ := hcases h₂
    exact h.distinct hold₁ hold₂ (by rw [htx₁, htx₂, heq])
  · intro key i hi
    obtain ⟨receivers, hsubscribed⟩ := h.joined (hat key ▸ hi)
    obtain ⟨old, hold, htx⟩ := Option.map_eq_some_iff.mp hsubscribed.sender
    refine ⟨receivers, hsubscribed.append ?_ ?_⟩
    · rw [Dict.lookup_insert_eq]
      split
      · rename_i htopic
        rw [htopic, hlookup]
        rfl
      · rfl
    · rw [heffects, hbroadcast]
      by_cases htopic : b.topic = key.topic
      · rw [← htopic, hlookup] at hold
        cases hold
        simp [Effect.broadcast?, htx, htopic]
      · have hne : sender.tx ≠ receivers.broadcast.tx :=
          fun heq => htopic (h.distinct hlookup hold (heq.trans htx.symm))
        simp [Effect.broadcast?, hne, htopic]

theorem MembersKnown.broadcast {b : Broadcast} (h : MembersKnown trace c)
    (hb : e.broadcastsConnected = false) (hbroadcast : e.input.broadcast? = some b)
    (heffects : e.effects = (c.handleBroadcast b).2) :
    MembersKnown (trace ++ [e]) (c.handleBroadcast b).1 := by
  have hnothing : ∀ effect ∈ e.effects, effect.finishesJoin = false ∧ effect.written? = none := by
    intro effect hmem
    rw [heffects] at hmem
    rcases c.handleBroadcast_effects b with heq | ⟨tx, heq⟩ <;> rw [heq] at hmem
    · cases hmem
    · obtain rfl := List.mem_singleton.mp hmem
      exact ⟨rfl, rfl⟩
  have hat : ∀ key, joinedAt key (trace ++ [e]) = joinedAt key trace := fun key =>
    joinedAt_unchanged hb (Entry.joined?_eq_none fun effect hmem => (hnothing effect hmem).1)
      (Entry.left?_eq_none (List.filterMap_eq_nil_iff.mpr fun effect hmem =>
        (hnothing effect hmem).2))
  unfold Connected.handleBroadcast at heffects ⊢
  cases hlookup : c.broadcastByTopic.lookup b.topic with
  | none =>
      rw [hlookup] at heffects
      refine h.kept (fun key i hi => hat key ▸ hi) ?_ rfl ?_ ?_
      · intro key
        rw [hat]
        exact h.senders
      · intro b' hb'
        rw [hbroadcast] at hb'
        cases hb'
        exact hlookup
      · intro tx
        rw [heffects]
        rfl
  | some sender =>
      rw [hlookup] at heffects
      exact h.heard hat hlookup hbroadcast heffects

/-- Whoever has just joined gets all that is sent into the channel of his topic from now on. -/
theorem Subscribed.begin {sender : BroadcastSender}
    (hsender : c'.broadcastByTopic.lookup topic = some sender)
    (hsent : sender.sent = (broadcastsInto sender.tx trace).length)
    (hmade : e.receivers? = some receivers) (hbroadcast : receivers.broadcast = sender.subscribe)
    (hquiet : ∀ tx, e.effects.filterMap (Effect.broadcast? tx) = []) :
    Subscribed (trace ++ [e]) c' topic trace.length receivers where
  made := by simp [hmade]
  sender := by
    rw [hsender, hbroadcast]
    rfl
  le := by
    rw [broadcastsInto_append, hquiet, List.append_nil, hbroadcast]
    exact Nat.le_of_eq hsent
  all := by
    rw [broadcastsInto_append, hquiet, List.append_nil, hbroadcast]
    simp only [BroadcastSender.subscribe]
    rw [hsent, List.drop_length, List.drop_eq_nil_of_le (by simp)]
    rfl

theorem MembersKnown.finish {join : Join} (h : MembersKnown trace c)
    (hunused : broadcastsInto trace.length trace = []) (hkey : join.key = reply.key)
    (hstatus : reply.status = .ok) (hb : e.broadcastsConnected = false)
    (hjoined : e.joined? = some reply.key) (hbroadcast : e.input.broadcast? = none)
    (heffects : e.effects = ((c.removeJoin reply.key).2.finishJoin reply join trace.length).2) :
    MembersKnown (trace ++ [e])
      ((c.removeJoin reply.key).2.finishJoin reply join trace.length).1 := by
  have htopic : join.topic = reply.key.topic := congrArg JoinKey.topic hkey
  obtain ⟨sender, hsubscribes, hanswer⟩ :=
    finishJoin_ok (c.removeJoin reply.key).2 join trace.length hstatus
  have hs : Subscribes trace.length c
      ((c.removeJoin reply.key).2.finishJoin reply join trace.length).1 join.topic sender :=
    ⟨hsubscribes.found, hsubscribes.others, hsubscribes.before⟩
  rw [hanswer] at heffects
  have hquiet : ∀ tx, e.effects.filterMap (Effect.broadcast? tx) = [] := by
    intro tx
    rw [heffects]
    rfl
  have hleft : e.left? = none := Entry.left?_eq_none (by rw [Entry.written, heffects]; rfl)
  constructor
  · intro key
    rw [Connected.finishJoin_joinedChannelTxs, Connected.removeJoin_joinedChannelTxs,
      joinedAt_joined hb hjoined hleft, h.senders]
    have hk : (⟨join.topic, reply.joinReference⟩ : JoinKey) = reply.key := by rw [htopic]; rfl
    rw [hk]
    by_cases heq : key = reply.key <;> simp [heq, hstatus]
  · intro topic sender' hlookup
    rw [List.length_append]
    exact Nat.lt_succ_of_le (h.old_subscribes hs hlookup)
  · intro topic sender' hlookup
    rw [broadcastsInto_append, hquiet, List.append_nil]
    exact h.sent_subscribes hunused hs hlookup
  · intro topic topic' sender₁ sender₂ h₁ h₂ heq
    exact h.distinct_subscribes hs h₁ h₂ heq
  · intro key i hi
    rw [joinedAt_joined hb hjoined hleft] at hi
    split at hi
    · rename_i hk
      cases hi
      have hsent := h.sent_subscribes hunused hs hs.found
      have hmade : e.receivers? =
          some ⟨reply.payload, trace.length, sender.subscribe, trace.length⟩ := by
        simp [Entry.receivers?, heffects, Effect.receivers?]
      rw [hk, ← htopic]
      exact ⟨_, .begin hs.found hsent hmade rfl hquiet⟩
    · obtain ⟨receivers, hsubscribed⟩ := h.joined hi
      obtain ⟨old, hold, _⟩ := Option.map_eq_some_iff.mp hsubscribed.sender
      refine ⟨receivers, hsubscribed.append ?_ ?_⟩
      · rw [hs.kept hold, hold]
      · rw [hquiet, hbroadcast]
        rfl

theorem MembersKnown.step (h : MembersKnown trace c)
    (hunused : broadcastsInto trace.length trace = [])
    (hkeys : ∀ key join, c.pendingJoin key = some join → join.key = key)
    (hb : e.broadcastsConnected = false) (hchange : ConnectionChange trace.length c c' e) :
    MembersKnown (trace ++ [e]) c' := by
  cases hchange with
  | kept hsenders hmap hjoined hleft hbroadcast heffects =>
      have hat : ∀ key, joinedAt key (trace ++ [e]) = joinedAt key trace :=
        fun key => joinedAt_unchanged hb hjoined hleft
      refine h.kept (fun key i hi => hat key ▸ hi) ?_ hmap (by simp [hbroadcast]) heffects
      intro key
      rw [hsenders, hat, h.senders]
  | broadcast hbroadcast hc heffects =>
      subst hc
      exact h.broadcast hb hbroadcast heffects
  | joined hjoin hstatus hjoined hbroadcast hc heffects =>
      subst hc
      exact h.finish hunused (hkeys _ _ hjoin) hstatus hb hjoined hbroadcast heffects
  | @left leave hc hleft hjoined hbroadcast heffects =>
      subst hc
      have hat : ∀ key, joinedAt key (trace ++ [e]) =
          if key = leave.key then none else joinedAt key trace := by
        intro key
        rw [joinedAt_append, hb, hjoined, hleft]
        by_cases hk : key = leave.key
        · simp [hk]
        · simp [hk, Ne.symm hk]
      refine h.kept ?_ ?_ rfl (by simp [hbroadcast]) heffects
      · intro key i hi
        rw [hat] at hi
        split at hi
        · cases hi
        · exact hi
      · intro key
        rw [Connected.removeJoinedChannelTxs_joinedChannelTxs, hat, h.senders]
        split <;> rfl

theorem membersKnown_new {now : Instant} {timeout : Duration} (hb : e.broadcastsConnected = true) :
    MembersKnown (trace ++ [e]) (Connected.new now timeout) := by
  have hat : ∀ {key}, joinedAt key (trace ++ [e]) = none := by
    intro key
    rw [joinedAt_append, hb]
    rfl
  have hlookup : ∀ {topic}, (Connected.new now timeout).broadcastByTopic.lookup topic = none :=
    AList.lookup_empty _
  constructor
  · intro key
    rw [hat]
    rfl
  · intro topic sender hsender
    rw [hlookup] at hsender
    cases hsender
  · intro topic sender hsender
    rw [hlookup] at hsender
    cases hsender
  · intro topic topic' sender sender' hsender
    rw [hlookup] at hsender
    cases hsender
  · intro key i hi
    rw [hat] at hi
    cases hi

/-- Only the handler of a broadcast sends one, into the channel of its topic. -/
theorem select_broadcasts (h : (machine strategy).step w (.select input) = some w') :
    ∃ e, w'.trace = w.trace ++ [e] ∧ ∀ tx b, .broadcastTx tx b ∈ e.effects →
      ∃ c sender, w.task.connection = some c ∧
        c.broadcastByTopic.lookup b.topic = some sender ∧ sender.tx = tx := by
  obtain ⟨state, iteration, htask, hselect, rfl⟩ := step_select h
  refine ⟨_, rfl, fun tx b hmem => ?_⟩
  cases state with
  | connected c =>
      have hcause := (select_connected hselect).cause hmem
      cases hcause with
      | quiet hq => cases hq.quiet
      | @broadcast c received sent b tx hdecode =>
          have hiter := select_message hselect (m := .broadcast b)
            (by simp [Input.message?, hdecode])
          subst hiter
          refine ⟨c, ?_⟩
          simp only [handleMessage, World.outcome, Connected.handleBroadcast] at hmem
          split at hmem
          · rename_i sender hsender
            cases List.mem_singleton.mp hmem
            exact ⟨sender, by rw [htask]; rfl, hsender, rfl⟩
          · cases hmem
  | _ =>
      have hcause := (select_unconnected (by simp) hselect).cause hmem
      cases hcause with
      | quiet hq => cases hq.quiet

theorem membersKnown_and_unused (h : Run (machine strategy) ok World.init ls w) :
    (∀ c, w.task.connection = some c → MembersKnown w.trace c) ∧
      ∀ tx, w.trace.length ≤ tx → broadcastsInto tx w.trace = [] := by
  refine h.invariant_of_run (I := fun w =>
    (∀ c, w.task.connection = some c → MembersKnown w.trace c) ∧
      ∀ tx, w.trace.length ≤ tx → broadcastsInto tx w.trace = []) ?_ ?_
  · refine ⟨?_, fun _ _ => rfl⟩
    intro c hc
    cases hc
  intro ls w label w' hrun ⟨hknown, hunused⟩ _ hs
  cases label with
  | select input =>
      constructor
      · intro c' hc'
        cases select_change hs hc' with
        | @kept c e htask htrace _ _ hb hchange =>
            have hc : w.task.connection = some c := by rw [htask]; rfl
            have hmatch := membersMatch_invariant.of_run hrun _ (by rw [htask]; rfl)
            rw [htrace]
            rw [fresh_of_run hrun] at hchange
            exact (hknown _ hc).step (hunused _ (Nat.le_refl _))
              (fun _ _ hj => hmatch.joins hj) hb hchange
        | fresh htrace hb hc =>
            rw [htrace, hc]
            exact membersKnown_new hb
      · intro tx htx
        obtain ⟨e, htrace, hbroadcasts⟩ := select_broadcasts hs
        rw [htrace, List.length_append] at htx
        have htx : w.trace.length < tx := htx
        rw [htrace, broadcastsInto_append, hunused tx (Nat.le_of_lt htx), List.nil_append]
        refine List.filterMap_eq_nil_iff.mpr fun effect hmem => ?_
        cases effect with
        | broadcastTx tx' b =>
            obtain ⟨c, sender, hc, hsender, rfl⟩ := hbroadcasts tx' b hmem
            have hlt := (hknown c hc).old hsender
            have hne : sender.tx ≠ tx := Nat.ne_of_lt (Nat.lt_trans hlt htx)
            simp [Effect.broadcast?, hne]
        | _ => rfl
  | elapse =>
      cases step_cases hs
      exact ⟨hknown, hunused⟩
  | pushed | publish =>
      cases step_cases hs
      rename_i htask
      refine ⟨fun c hc => hknown c ?_, hunused⟩
      rw [htask]
      exact hc

theorem membersKnown_of_run (h : Run (machine strategy) ok World.init ls w)
    (hc : w.task.connection = some c) : MembersKnown w.trace c :=
  (membersKnown_and_unused h).1 c hc

/-! ## Pushes for the members -/

/-- `handle_push` sends a push to the member that its key names, if there is one. -/
theorem handed?_of_run (h : Run (machine strategy) ok World.init ls w) :
    History.Always (fun before e => e.handed? = e.input.pushed?.bind fun p =>
      (joinedAt p.key before).map fun tx => (tx, p)) w.trace := by
  refine h.invariant_of_run (I := fun w => History.Always (fun before e =>
    e.handed? = e.input.pushed?.bind fun p => (joinedAt p.key before).map fun tx => (tx, p))
      w.trace) .nil ?_
  intro ls w label w' hrun ih _ hs
  cases label with
  | select input =>
      obtain ⟨state, iteration, htask, hselect, rfl⟩ := step_select hs
      refine ih.append ?_
      cases hpushed : input.pushed? with
      | none => cases state <;> simp [Entry.handed?, hpushed]
      | some p =>
          cases state with
          | connected c =>
              have hknown : MembersKnown w.trace c := membersKnown_of_run hrun (by rw [htask]; rfl)
              simp [Entry.handed?, hpushed, Connected.pushTx, hknown.senders, Function.comp_def]
          | _ =>
              unfold Input.pushed? at hpushed
              split at hpushed
              · rename_i hm
                obtain ⟨received, sent, rfl, _⟩ := message_cases hm
                cases hselect
              · cases hpushed
  | elapse => cases step_cases hs; exact ih
  | pushed | publish => cases step_cases hs; exact ih

/-- The pushes that were handed to the member with the sender `tx`, each with the position of the
iteration that decoded it. -/
def handedInto (tx : TxId) (trace : List Entry) : List (Nat × Push) :=
  trace.zipIdx.filterMap fun (e, n) => e.handed?.bind fun (tx', push) =>
    if tx' = tx then some (n, push) else none

theorem handedInto_append (tx : TxId) (trace : List Entry) (e : Entry) :
    handedInto tx (trace ++ [e]) = handedInto tx trace ++
      (e.handed?.bind fun (tx', push) =>
        if tx' = tx then some (trace.length, push) else none).toList := by
  simp only [handedInto, List.zipIdx_append, List.filterMap_append, List.zipIdx_singleton,
    Nat.zero_add]
  congr 1

/-- The listener suspends with exactly the push that it hands over. -/
theorem select_handed (h : (machine strategy).step w (.select input) = some w') :
    ∃ e, w'.trace = w.trace ++ [e] ∧ ∀ tx push,
      e.handed? = some (tx, push) ↔ ∃ c, w'.task = .pushing c tx push := by
  obtain ⟨state, iteration, htask, hselect, rfl⟩ := step_select h
  refine ⟨_, rfl, fun tx push => ?_⟩
  rw [record_task]
  cases state with
  | connected c =>
      constructor
      · intro hhanded
        unfold Entry.handed? at hhanded
        split at hhanded
        · rename_i c' p hc hpushed
          cases hc
          obtain ⟨tx', htx, hpair⟩ := Option.map_eq_some_iff.mp hhanded
          cases hpair
          unfold Input.pushed? at hpushed
          split at hpushed <;> cases hpushed
          have hiter := select_message hselect ‹_›
          rw [hiter, handleMessage, htx]
          exact ⟨c, rfl⟩
        · cases hhanded
      · rintro ⟨c', hpushing⟩
        cases iteration with
        | push c₁ tx' p =>
            cases hpushing
            cases select_connected hselect with
            | push p tx hdecode htx =>
                simp [Entry.handed?, Input.pushed?, Input.message?, hdecode, htx]
        | next | exit | panic => cases hpushing
  | _ =>
      constructor
      · intro hhanded
        cases hhanded
      · rintro ⟨c', hpushing⟩
        cases iteration with
        | push c₁ tx' p => cases select_unconnected (by simp) hselect
        | next | exit | panic => cases hpushing

/-- The iteration at the position `n` finishes a join with `Ok`. -/
structure Entry.FinishesJoin (n : Nat) (e : Entry) (join : Join)
    (receivers : JoinedChannelReceivers) : Prop where
  pending : ∃ c, e.before = .connected c ∧ c.pendingJoin join.key = some join
  effects : e.effects = [.joinedTx join.joinedTx (.ok receivers)]
  joined : e.joined? = some join.key
  push : receivers.push = n
  left : receivers.left = n

theorem Entry.FinishesJoin.receivers?_eq {n : Nat} {join : Join} (h : e.FinishesJoin n join receivers) :
    e.receivers? = some receivers := by
  simp [Entry.receivers?, h.effects, Effect.receivers?]

theorem select_finishesJoin {now : Instant} {iteration : Iteration}
    (h : select strategy now fresh (.connected c) input = some iteration)
    (hkeys : ∀ key join, c.pendingJoin key = some join → join.key = key)
    (hmem : .joinedTx tx (.ok receivers) ∈ (World.outcome iteration).2) :
    ∃ join, Entry.FinishesJoin fresh ⟨now, .connected c, input, (World.outcome iteration).2⟩ join
      receivers ∧ join.joinedTx = tx := by
  have hcause := (select_connected h).cause hmem
  generalize hresult : Except.ok receivers = result at hcause
  cases hcause with
  | quiet hq => cases hq.quiet
  | timedOut | joinLost => cases hresult
  | @joinFinished c received sent r join result hdecode hjoin hstatus =>
      obtain ⟨_, hok, _⟩ | ⟨_, rfl⟩ := hstatus
      · have hm : Input.message? (.socketResult (.ok received) sent) = some (.reply r) := by
          simp [Input.message?, hdecode]
        have hiter := select_message h hm
        subst hiter hresult
        have hkey := hkeys _ _ hjoin
        simp only [handleMessage] at hmem ⊢
        split at hmem
        · cases hmem
        rw [if_neg ‹_›]
        rcases c.handleReply_cases r fresh with ⟨join', hjoin', h⟩ | ⟨hnone, _⟩ | ⟨hnone, _⟩
        · cases hjoin.symm.trans hjoin'
          obtain ⟨sender, _, hanswer⟩ :=
            finishJoin_ok (c.removeJoin r.key).2 join fresh hok
          simp only [World.outcome, h, hanswer] at hmem ⊢
          cases List.mem_singleton.mp hmem
          refine ⟨join, ⟨⟨c, rfl, hkey ▸ hjoin⟩, rfl, ?_, rfl, rfl⟩, rfl⟩
          simp [Entry.joined?, Entry.reply?, reply?_of_message hm, Effect.finishesJoin, hkey]
        · rw [hjoin] at hnone
          cases hnone
        · rw [hjoin] at hnone
          cases hnone
      · cases hresult

/-- A join that is answered with `Ok` was pending, and the iteration does nothing else. -/
def JoinsFinished (trace : List Entry) : Prop :=
  History.Always (fun before e => ∀ tx receivers, .joinedTx tx (.ok receivers) ∈ e.effects →
    ∃ join, e.FinishesJoin before.length join receivers ∧ join.joinedTx = tx) trace

theorem joinsFinished_of_run (h : Run (machine strategy) ok World.init ls w) :
    JoinsFinished w.trace := by
  refine h.invariant_of_run (I := fun w => JoinsFinished w.trace) ?_ ?_
  · exact History.Always.nil
  intro ls w label w' hrun ih _ hs
  cases label with
  | select input =>
      obtain ⟨state, iteration, htask, hselect, rfl⟩ := step_select hs
      refine History.Always.append ih fun tx receivers hmem => ?_
      cases state with
      | connected c =>
          have hmatch := membersMatch_invariant.of_run hrun c (by rw [htask]; rfl)
          rw [← fresh_of_run hrun]
          exact select_finishesJoin hselect (fun _ _ hj => hmatch.joins hj) hmem
      | _ =>
          cases (select_unconnected (by simp) hselect).cause hmem with
          | quiet hq => cases hq.quiet
  | elapse => cases step_cases hs; exact ih
  | pushed | publish => cases step_cases hs; exact ih

theorem Entry.effect_of_receivers (h : e.receivers? = some receivers) :
    ∃ tx, .joinedTx tx (.ok receivers) ∈ e.effects := by
  obtain ⟨effect, hmem, heffect⟩ := List.exists_of_findSome?_eq_some h
  cases effect with
  | joinedTx tx result =>
      cases result <;> cases heffect
      exact ⟨tx, hmem⟩
  | _ => cases heffect

theorem Entry.effect_of_joined (h : e.joined? = some key) :
    ∃ tx receivers, .joinedTx tx (.ok receivers) ∈ e.effects := by
  unfold Entry.joined? at h
  split at h
  · rename_i hany
    obtain ⟨effect, hmem, heffect⟩ := List.any_eq_true.mp hany
    cases effect with
    | joinedTx tx result =>
        cases result with
        | ok receivers => exact ⟨tx, receivers, hmem⟩
        | error => cases heffect
    | _ => cases heffect
  · cases h

theorem joined?_of_joinedAt (h : joinedAt key trace = some i) :
    ∃ e, (trace)[i]? = some e ∧ e.joined? = some key := by
  induction trace using List.reverseRecOn with
  | nil => cases h
  | append_singleton trace e ih =>
      rw [joinedAt_append] at h
      split at h
      · cases h
      split at h
      · cases h
        exact ⟨e, by simp, ‹_›⟩
      split at h
      · cases h
      · obtain ⟨f, hf, hjoined⟩ := ih h
        have hi := (List.getElem?_eq_some_iff.mp hf).1
        exact ⟨f, by rw [List.getElem?_append_left hi]; exact hf, hjoined⟩

theorem split_of_getElem? (h : (trace)[i]? = some e) :
    trace = trace.take i ++ e :: trace.drop (i + 1) ∧ (trace.take i).length = i := by
  obtain ⟨hi, rfl⟩ := List.getElem?_eq_some_iff.mp h
  refine ⟨by simp, ?_⟩
  rw [List.length_take]
  omega

theorem JoinsFinished.of_receivers (h : JoinsFinished trace) (he : (trace)[i]? = some e)
    (hreceivers : e.receivers? = some receivers) :
    ∃ join, e.FinishesJoin i join receivers := by
  obtain ⟨hsplit, hlength⟩ := split_of_getElem? he
  obtain ⟨tx, hmem⟩ := Entry.effect_of_receivers hreceivers
  obtain ⟨join, hfinishes, _⟩ := h _ _ _ hsplit tx receivers hmem
  exact ⟨join, hlength ▸ hfinishes⟩

theorem JoinsFinished.of_joinedAt (h : JoinsFinished trace) (hat : joinedAt key trace = some i) :
    ∃ e join receivers, (trace)[i]? = some e ∧ e.FinishesJoin i join receivers ∧
      join.key = key := by
  obtain ⟨e, he, hjoined⟩ := joined?_of_joinedAt hat
  obtain ⟨hsplit, hlength⟩ := split_of_getElem? he
  obtain ⟨tx, receivers, hmem⟩ := Entry.effect_of_joined hjoined
  obtain ⟨join, hfinishes, _⟩ := h _ _ _ hsplit tx receivers hmem
  refine ⟨e, join, receivers, he, hlength ▸ hfinishes, ?_⟩
  exact Option.some.inj (hfinishes.joined.symm.trans hjoined)

end PhoenixChannels.Socket
