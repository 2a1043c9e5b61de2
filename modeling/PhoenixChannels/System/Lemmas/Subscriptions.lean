import PhoenixChannels.Channel.Lemmas.Reading
import PhoenixChannels.System.Lemmas.Members

/-!
# What the members read

The broadcast receiver of a member: where it began, what it has read and what is left. A channel
that keeps up has read, or can still read, all broadcasts of its topic since its join was finished.
-/

namespace PhoenixChannels

open Machine

/-! ## Broadcast channels -/

namespace Socket

variable {strategy : Option (Nat → Duration)} {ok : World → Label → Prop} {ls : List Label}
variable {w w' : World} {input : Input} {c c' : Connected} {e : Entry} {trace : List Entry}
variable {key : JoinKey} {join : Join} {receivers receivers' : JoinedChannelReceivers}
variable {topic : Topic} {tx : TxId} {n i : Nat}

/-- The iteration that finishes a join keeps the connection. -/
theorem Entry.FinishesJoin.connection (hfinishes : e.FinishesJoin n join receivers)
    (h : (machine strategy).step w (.select input) = some w')
    (htrace : w'.trace = w.trace ++ [e]) : ∃ c', w'.task.connection = some c' := by
  obtain ⟨state, iteration, htask, hselect, rfl⟩ := step_select h
  obtain rfl : _ = e := by simpa [World.record] using htrace
  obtain ⟨c, hbefore, _⟩ := hfinishes.pending
  obtain rfl : state = .connected c := hbefore
  have heffects : (World.outcome iteration).2 = [.joinedTx join.joinedTx (.ok receivers)] :=
    hfinishes.effects
  cases select_connected hselect with
  | push | exit | panic => cases heffects
  | @lost _ before after state d =>
      have hmem : .connectivity (.disconnected d) ∈
          before ++ (sendDisconnected c d).2 ++ after := by simp [sendDisconnected]
      simp only [World.outcome] at heffects
      rw [heffects] at hmem
      simp at hmem
  | _ => exact ⟨_, rfl⟩

/-- Who joined subscribed at the end of the broadcast channel. -/
theorem Subscribed.next_eq (h : Subscribed (trace ++ [e]) c topic trace.length receivers) :
    receivers.broadcast.next =
      (broadcastsInto receivers.broadcast.tx (trace ++ [e])).length := by
  have hall := h.all
  rw [List.drop_eq_nil_of_le (Nat.le_of_eq (by simp : (trace ++ [e]).length = trace.length + 1))]
    at hall
  exact Nat.le_antisymm h.le (List.drop_eq_nil_iff.mp hall)

theorem Entry.FinishesJoin.next_eq (hfinishes : e.FinishesJoin w.trace.length join receivers)
    {ls' : List Label} (hrun : Run (machine strategy) ok World.init ls' w')
    (h : (machine strategy).step w (.select input) = some w')
    (htrace : w'.trace = w.trace ++ [e]) :
    receivers.broadcast.next = (broadcastsInto receivers.broadcast.tx w'.trace).length := by
  obtain ⟨c', hc'⟩ := hfinishes.connection h htrace
  have hb : e.broadcastsConnected = false := by
    simp [Entry.broadcastsConnected, hfinishes.effects]
  have hat : joinedAt join.key w'.trace = some w.trace.length := by
    rw [htrace, joinedAt_append, hb, hfinishes.joined]
    simp
  obtain ⟨receivers', hsubscribed⟩ := (membersKnown_of_run hrun hc').joined hat
  have hmade := hsubscribed.made
  rw [htrace] at hsubscribed hmade ⊢
  rw [List.getElem?_concat_length, Option.bind_some, hfinishes.receivers?_eq] at hmade
  cases hmade
  exact hsubscribed.next_eq

end Socket

namespace System

variable {strategy : Option (Nat → Duration)} {ok : System → Label → Prop} {ls : List Label}
variable {s s' : System} {label : Label} {c c' : JoinReference} {w w' : Channel.World} {tx : TxId}
variable {past : List (System × Label)} {rx : BroadcastReceiver} {d : Delivery}
variable {joined joined' : Channel.Joined}

/-- The broadcasts that were taken as the member `tx`. -/
def broadcastsTaken (tx : TxId) (deliveries : List Delivery) : List Broadcast :=
  deliveries.filterMap fun d => if d.member = tx then d.arrival.broadcast? else none

theorem broadcastsTaken_append {ds ds' : List Delivery} :
    broadcastsTaken tx (ds ++ ds') = broadcastsTaken tx ds ++ broadcastsTaken tx ds' :=
  List.filterMap_append

theorem broadcasts_sent :
    (s.broadcasts tx).sent = s.visible.filterMap (Socket.Effect.broadcast? tx) := rfl

/-- What a broadcast channel was sent, and what it will be sent by the running handler. -/
theorem broadcastsInto_eq : Socket.broadcastsInto tx s.socket.trace =
    (s.broadcasts tx).sent ++ s.undelivered.filterMap (Socket.Effect.broadcast? tx) := by
  rw [broadcasts_sent, ← List.filterMap_append, visible, undelivered, List.take_append_drop]
  rfl

/-- What a step sends into a broadcast channel. -/
inductive BroadcastsChange (tx : TxId) (s : System) (label : Label) (s' : System) : Prop
  | kept : (s'.broadcasts tx).sent = (s.broadcasts tx).sent → BroadcastsChange tx s label s'
  | sent (b : Broadcast) : label = .deliver →
      s.socket.effects[s.delivered]? = some (.broadcastTx tx b) →
      (s'.broadcasts tx).sent = (s.broadcasts tx).sent ++ [b] → BroadcastsChange tx s label s'

theorem SystemStep.broadcasts_cases (h : SystemStep strategy s label s')
    (hle : s.delivered ≤ s.socket.effects.length) (tx : TxId) :
    BroadcastsChange tx s label s' := by
  rcases h.visible_cases hle with hvisible | ⟨effect, heffect, hlabel, _, hvisible⟩
  · exact .kept (by rw [broadcasts_sent, broadcasts_sent, hvisible])
  · cases hb : effect.broadcast? tx with
    | none =>
        refine .kept ?_
        rw [broadcasts_sent, broadcasts_sent, hvisible, List.filterMap_append]
        simp [hb]
    | some b =>
        cases effect with
        | broadcastTx tx' b' =>
            simp only [Socket.Effect.broadcast?, Option.ite_none_right_eq_some,
              Option.some.injEq] at hb
            obtain ⟨rfl, rfl⟩ := hb
            refine .sent b' hlabel heffect ?_
            rw [broadcasts_sent, broadcasts_sent, hvisible, List.filterMap_append]
            simp [Socket.Effect.broadcast?]
        | _ => cases hb

/-! ## Who takes a message -/

theorem taken?_poll (h : s.taken? label = some d) :
    ∃ w joined, label = .poll d.channel ∧ s.channels.lookup d.channel = some w ∧
      w.task.joined? = some joined ∧ joined.pushRx = d.member ∧
      (d.arrival.broadcast?.isSome = true → w.task.readsBroadcast = true) := by
  cases label with
  | poll c =>
      simp only [taken?, Option.bind_eq_some_iff, Option.map_eq_some_iff] at h
      obtain ⟨w, hw, ⟨tx, arrival⟩, htakes, rfl⟩ := h
      unfold Channel.World.takes at htakes
      split at htakes
      · rename_i joined rest disabled htask
        obtain ⟨push, _, hpair⟩ := Option.map_eq_some_iff.mp htakes
        cases hpair
        exact ⟨w, joined, rfl, hw, by rw [htask]; rfl, rfl, fun hsome => by cases hsome⟩
      · rename_i joined rest disabled htask
        split at htakes <;> cases htakes
        exact ⟨w, joined, rfl, hw, by rw [htask]; rfl, rfl, fun _ => by rw [htask]; rfl⟩
      · cases htakes
  | _ => cases h

theorem holds_of_taken (h : s.taken? label = some d) : s.Holds d.channel d.member := by
  obtain ⟨w, joined, _, hw, hj, htx, _⟩ := taken?_poll h
  exact ⟨joined.broadcastRx, w, hw, .inl ⟨joined, hj, htx, rfl⟩⟩

/-- A membership belongs to one channel. -/
theorem holder_unique (hrun : Run (machine strategy) ok init ls s) (h : s.Holds c tx)
    (h' : s.Holds c' tx) : c = c' := by
  obtain ⟨rx, w, hw, hreceives⟩ := h
  obtain ⟨rx', w', hw', hreceives'⟩ := h'
  obtain ⟨e, join, receivers, he, hfinishes, hkey⟩ :=
    (settled_of_run hrun hw ⟨rx, w, hw, hreceives⟩).finished
  obtain ⟨e', join', receivers', he', hfinishes', hkey'⟩ :=
    (settled_of_run hrun hw' ⟨rx', w', hw', hreceives'⟩).finished
  cases Option.some.inj (he.symm.trans he')
  have hjoined := Option.some.inj (hfinishes.joined.symm.trans hfinishes'.joined)
  rw [hkey, hkey'] at hjoined
  exact congrArg Socket.JoinKey.joinReference hjoined

theorem member_lt (hrun : Run (machine strategy) ok init ls s) (h : s.Holds c tx) :
    tx < s.socket.trace.length := by
  obtain ⟨rx, w, hw, hreceives⟩ := h
  obtain ⟨e, _, _, he, _⟩ := (settled_of_run hrun hw ⟨rx, w, hw, hreceives⟩).finished
  exact (List.getElem?_eq_some_iff.mp he).1

theorem SystemStep.trace_grows (h : SystemStep strategy s label s') :
    s.socket.trace <+: s'.socket.trace := by
  cases h.trace_cases with
  | kept htrace => exact htrace ▸ List.prefix_refl _
  | selected _ _ htrace => rw [htrace]; exact List.prefix_append _ _

/-- Nothing is taken as a member before its join is finished. -/
theorem member_lt_of_run (h : Run (machine strategy) ok init ls s) :
    ∀ d ∈ deliveries ((machine strategy).steps init ls), d.member < s.socket.trace.length := by
  refine h.history (I := fun past s => ∀ d ∈ deliveries past, d.member < s.socket.trace.length)
    (by simp [deliveries]) ?_
  intro ls past s label s' hrun ih _ hs d hd
  have hmono := (step_cases hs).trace_grows.length_le
  rw [deliveries_snoc] at hd
  rcases List.mem_append.mp hd with hd | hd
  · exact Nat.lt_of_lt_of_le (ih d hd) hmono
  · exact Nat.lt_of_lt_of_le (member_lt hrun (holds_of_taken (Option.mem_toList.mp hd))) hmono

/-! ## What a subscription has read -/

/-- The broadcast receivers that a channel has, or will find in the answer to its join. -/
def broadcastReceivers (s : System) (c : JoinReference) : List BroadcastReceiver :=
  match s.channels.lookup c with
  | some w =>
      (w.task.joined?.map Channel.Joined.broadcastRx).toList
        ++ s.socket.effects.filterMap fun
          | .joinedTx tx (.ok receivers) =>
              if w.task.joiningRx = some tx then some receivers.broadcast else none
          | _ => none
  | none => []

/-- No broadcast is sent to the channel while as many wait for it as there is room for. -/
def keepsUp (c : JoinReference) (s : System) : Label → Bool
  | .deliver =>
      match s.socket.effects[s.delivered]? with
      | some (.broadcastTx tx _) => (s.broadcastReceivers c).all fun rx =>
          rx.tx ≠ tx || (s.broadcasts tx).sent.length < rx.next + (s.broadcasts tx).capacity
      | _ => true
  | _ => true

theorem mem_broadcastReceivers (h : s.Receives c tx rx) : rx ∈ s.broadcastReceivers c := by
  obtain ⟨w, hw, h⟩ := h
  simp only [broadcastReceivers, hw]
  rcases h with ⟨joined, hj, _, rfl⟩ | ⟨joinedRx, receivers, hrx, hmem, _, rfl⟩
  · exact List.mem_append_left _ (by simp [hj])
  · exact List.mem_append_right _ (List.mem_filterMap.mpr ⟨_, hmem, by simp [hrx]⟩)

/-- What a member has read of its subscription: all that was sent since its join, up to the position
of its receiver, which does not lag. -/
structure HasRead (past : List (System × Label)) (s : System) (tx : TxId) (rx : BroadcastReceiver) :
    Prop where
  taken : ∃ receivers, ((s.socket.trace)[tx]?).bind Socket.Entry.receivers? = some receivers ∧
    receivers.broadcast.tx = rx.tx ∧ receivers.broadcast.next ≤ rx.next ∧
    broadcastsTaken tx (deliveries past) =
      ((s.broadcasts rx.tx).sent.take rx.next).drop receivers.broadcast.next
  le : rx.next ≤ (s.broadcasts rx.tx).sent.length
  inTime : (s.broadcasts rx.tx).sent.length ≤ rx.next + (s.broadcasts rx.tx).capacity

theorem receivers?_of_grows {trace trace' : List Socket.Entry} {receivers : JoinedChannelReceivers}
    (h : trace <+: trace') (hmade : ((trace)[tx]?).bind Socket.Entry.receivers? = some receivers) :
    ((trace')[tx]?).bind Socket.Entry.receivers? = some receivers := by
  obtain ⟨e, he, hmade⟩ := Option.bind_eq_some_iff.mp hmade
  obtain ⟨more, rfl⟩ := h
  rw [List.getElem?_append_left (List.getElem?_eq_some_iff.mp he).1, he, Option.bind_some, hmade]

/-- A step that takes no broadcast as the member, and lets its receiver be. -/
theorem HasRead.step (h : HasRead past s tx rx) (hstep : SystemStep strategy s label s')
    (hle : s.delivered ≤ s.socket.effects.length) (hreceives : s.Receives c tx rx)
    (hkeeps : keepsUp c s label = true) (hnone : broadcastsTaken tx (s.taken? label).toList = []) :
    HasRead (past ++ [(s, label)]) s' tx rx := by
  obtain ⟨receivers, hmade, htx, hstart, htaken⟩ := h.taken
  have hmade' := receivers?_of_grows hstep.trace_grows hmade
  have htaken' : broadcastsTaken tx (deliveries (past ++ [(s, label)])) =
      ((s.broadcasts rx.tx).sent.take rx.next).drop receivers.broadcast.next := by
    rw [deliveries_snoc, broadcastsTaken_append, hnone, List.append_nil, htaken]
  cases hstep.broadcasts_cases hle rx.tx with
  | kept hsent =>
      refine ⟨⟨receivers, hmade', htx, hstart, ?_⟩, ?_, ?_⟩ <;> rw [hsent]
      · exact htaken'
      · exact h.le
      · exact h.inTime
  | sent b hlabel heffect hsent =>
      have hroom : (s.broadcasts rx.tx).sent.length < rx.next + (s.broadcasts rx.tx).capacity := by
        subst hlabel
        simp only [keepsUp, heffect, List.all_eq_true] at hkeeps
        simpa using hkeeps rx (mem_broadcastReceivers hreceives)
      refine ⟨⟨receivers, hmade', htx, hstart, ?_⟩, ?_, ?_⟩ <;> rw [hsent]
      · rw [htaken', List.take_append_of_le_length h.le]
      · exact Nat.le_trans h.le (by simp)
      · rw [List.length_append]
        exact hroom

theorem broadcastsTaken_of_ne (h : ∀ d, s.taken? label = some d → d.arrival.broadcast?.isSome = true →
    d.member ≠ tx) : broadcastsTaken tx (s.taken? label).toList = [] := by
  cases htaken : s.taken? label with
  | none => rfl
  | some d =>
      have hne := h d htaken
      by_cases hd : d.member = tx
      · have hnone : d.arrival.broadcast? = none := by simpa [hd] using hne
        simp [broadcastsTaken, hnone]
      · simp [broadcastsTaken, hd]

/-- A poll of the branch of the broadcasts takes the next one, or finds none. -/
theorem HasRead.read (h : HasRead past s joined.pushRx joined.broadcastRx)
    (hstep : SystemStep strategy s (.poll c) s') (hle : s.delivered ≤ s.socket.effects.length)
    (hw : s.channels.lookup c = some w) (hreads : w.task.readsBroadcast = true)
    (hj : w.task.joined? = some joined) :
    HasRead (past ++ [(s, .poll c)]) s' joined.pushRx { joined.broadcastRx with
      next := ((s.broadcasts joined.broadcastRx.tx).recv joined.broadcastRx.next).2 } := by
  obtain ⟨receivers, hmade, htx, hstart, htaken⟩ := h.taken
  have hmade' := receivers?_of_grows hstep.trace_grows hmade
  have hsent : ∀ tx, (s'.broadcasts tx).sent = (s.broadcasts tx).sent := by
    intro tx
    cases hstep.broadcasts_cases hle tx with
    | kept hsent => exact hsent
    | sent _ hlabel => cases hlabel
  obtain ⟨j, rest, disabled, htask⟩ := Channel.readsBroadcast_joined hreads
  rw [htask] at hj
  cases hj
  rcases BroadcastQueue.recv_cases h.inTime with ⟨b, hrecv, hget⟩ | hrecv
  · have htakes : s.taken? (.poll c) = some ⟨c, joined.pushRx, .broadcast b⟩ := by
      simp only [taken?, hw, Option.bind_some, Channel.World.takes, htask, surroundings, hrecv,
        Option.map_some]
    have hlt := (List.getElem?_eq_some_iff.mp hget).1
    rw [hrecv]
    refine ⟨⟨receivers, hmade', htx, Nat.le_succ_of_le hstart, ?_⟩, ?_, ?_⟩ <;> simp only [hsent]
    · rw [deliveries_snoc, htakes, broadcastsTaken_append, htaken, List.take_add_one, hget,
        List.drop_append_of_le_length (by rw [List.length_take]; omega)]
      simp [broadcastsTaken, Arrival.broadcast?]
    · exact hlt
    · exact Nat.le_trans h.inTime (Nat.add_le_add_right (Nat.le_succ _) _)
  · have htakes : s.taken? (.poll c) = none := by
      simp only [taken?, hw, Option.bind_some, Channel.World.takes, htask, surroundings, hrecv,
        Option.map_none]
    rw [hrecv]
    refine ⟨⟨receivers, hmade', htx, hstart, ?_⟩, ?_, ?_⟩ <;> simp only [hsent]
    · rw [deliveries_snoc, htakes, broadcastsTaken_append, htaken]
      simp [broadcastsTaken]
    · exact h.le
    · exact h.inTime

/-- A subscription begins with everything read that was sent before. -/
theorem HasRead.given {ls' : List Label} {joinedRx : TxId} {e : Socket.Entry}
    {receivers : JoinedChannelReceivers} (hrun : Run (machine strategy) ok init ls s)
    (hrun' : Run (machine strategy) ok init ls' s') (hstep : SystemStep strategy s label s')
    (hw : s.channels.lookup c = some w) (hrx : w.task.joiningRx = some joinedRx)
    (hrunning : s.socket.task.isRunning = true) (htrace : s'.socket.trace = s.socket.trace ++ [e])
    (hmem : .joinedTx joinedRx (.ok receivers) ∈ e.effects)
    (hmembers : ∀ d ∈ deliveries past, d.member < s.socket.trace.length) :
    HasRead (past ++ [(s, label)]) s' receivers.push receivers.broadcast := by
  obtain ⟨hpush, hsettled⟩ := settled_of_given hrun hrun' hstep hw hrx hrunning htrace hmem
  obtain ⟨e', join, receivers', he, hfinishes, _⟩ := hsettled.finished
  obtain rfl : e' = e := by simpa [htrace] using he.symm
  obtain rfl : receivers' = receivers := by
    rw [hfinishes.effects] at hmem
    cases List.mem_singleton.mp hmem
    rfl
  obtain ⟨ks', hks'⟩ := socket_run hrun'
  cases hstep.socket_cases with
  | kept heq => simp [heq] at htrace
  | stepped hl hsocket => simp [(Socket.step_quiet hl hsocket).1] at htrace
  | @selected event input taken hlabel hreceive hsocket =>
      subst hlabel
      obtain ⟨state, htask⟩ := select_selecting hsocket
      have hnext := hfinishes.next_eq hks' hsocket htrace
      have hsent : (s'.broadcasts receivers'.broadcast.tx).sent =
          (s.broadcasts receivers'.broadcast.tx).sent := by
        cases hstep.broadcasts_cases (delivered_le hrun) receivers'.broadcast.tx with
        | kept hsent => exact hsent
        | sent _ hlabel => cases hlabel
      have hseen : s.undelivered = [] := by
        rw [undelivered, delivered_of_run hrun (by simp [htask]), List.drop_length]
      have hinto : Socket.broadcastsInto receivers'.broadcast.tx s'.socket.trace =
          (s.broadcasts receivers'.broadcast.tx).sent := by
        rw [htrace, Socket.broadcastsInto_append, broadcastsInto_eq, hseen, hfinishes.effects]
        simp [Socket.Effect.broadcast?]
      rw [hinto, ← hsent] at hnext
      have htaken : broadcastsTaken receivers'.push (deliveries (past ++ [(s, .select event)])) =
          [] := by
        rw [deliveries_snoc, taken?_eq_none (by simp), Option.toList_none, List.append_nil]
        refine List.filterMap_eq_nil_iff.mpr fun d hd => if_neg ?_
        rw [hpush]
        exact Nat.ne_of_lt (hmembers d hd)
      refine ⟨⟨receivers', ?_, rfl, Nat.le_refl _, ?_⟩, Nat.le_of_eq hnext, ?_⟩
      · rw [hpush, he, Option.bind_some, hfinishes.receivers?_eq]
      · rw [htaken, hnext, List.take_length, List.drop_length]
      · rw [hnext]
        exact Nat.le_add_right _ _

/-- What the subscription of a channel has read, where the channel keeps up. -/
theorem hasRead_of_run (h : Run (machine strategy) (fun s l => keepsUp c s l = true) init ls s)
    (hreceives : s.Receives c tx rx) : HasRead ((machine strategy).steps init ls) s tx rx := by
  induction h generalizing tx rx with
  | nil =>
      obtain ⟨w, hw, _⟩ := hreceives
      rw [lookup_init] at hw
      cases hw
  | @snoc ls s label s' hrun hkeeps hs ih =>
      have hstep := step_cases hs
      have hle := delivered_le hrun
      rw [hrun.steps_snoc]
      cases hstep.receives_cases hrun hreceives with
      | held hreads hheld =>
          refine (ih hheld).step hstep hle hheld hkeeps (broadcastsTaken_of_ne ?_)
          rintro d htaken hbroadcast rfl
          obtain ⟨w, joined, hlabel, hw, hj, htx, hbroadcasts⟩ := taken?_poll htaken
          have hc : d.channel = c := holder_unique hrun (holds_of_taken htaken) ⟨rx, hheld⟩
          rw [hc] at hlabel hw
          rw [hreads hlabel w hw] at hbroadcasts
          cases hbroadcasts hbroadcast
      | @read w joined hlabel hw hreads hj htx hrx =>
          subst hlabel htx hrx
          exact (ih ⟨w, hw, .inl ⟨joined, hj, rfl, rfl⟩⟩).read hstep hle hw hreads hj
      | @given w joinedRx e receivers hw hrx hrunning htrace hmem htx hrx' =>
          subst htx hrx'
          exact .given hrun (hrun.snoc hkeeps hs) hstep hw hrx hrunning htrace hmem
            (member_lt_of_run hrun)

/-! ## A member on its connection -/

/-- The listener `c` is joined, and the connection on which its join was finished is still there. -/
structure JoinedOn (s : System) (c : JoinReference) (w : Channel.World) (joined : Channel.Joined) :
    Prop where
  channel : s.channels.lookup c = some w
  member : w.task.joined? = some joined
  connected : s.socket.task.isConnected = true
  same : ∀ e ∈ s.socket.trace.drop (joined.pushRx + 1), e.broadcastsConnected = false

namespace JoinedOn

theorem receives (h : JoinedOn s c w joined) : s.Receives c joined.pushRx joined.broadcastRx :=
  ⟨w, h.channel, .inl ⟨joined, h.member, rfl, rfl⟩⟩

theorem holds (h : JoinedOn s c w joined) : s.Holds c joined.pushRx := ⟨_, h.receives⟩

/-- The membership is the one that the socket listener knows. -/
theorem joinedAt (h : JoinedOn s c w joined) (hrun : Run (machine strategy) ok init ls s) :
    Socket.joinedAt ⟨w.listener.topic, c⟩ s.socket.trace = some joined.pushRx :=
  (settled_of_run hrun h.channel h.holds).current h.same

/-- Every push that the web socket gave for the member was taken, or waits for it. -/
theorem pushes (h : JoinedOn s c w joined) (hrun : Run (machine strategy) ok init ls s) :
    account joined.pushRx ((machine strategy).steps init ls) s =
      Socket.pushesFor ⟨w.listener.topic, c⟩ (s.socket.trace.drop (joined.pushRx + 1)) := by
  obtain ⟨ks, hks⟩ := socket_run hrun
  have hhanded : Socket.PushesHanded s.socket.trace := Socket.handed?_of_run hks
  rw [account_of_holds hrun h.holds, hhanded.handedInto_eq (h.joinedAt hrun)]

/-- The subscription of the member, as the connection knows it. -/
theorem subscribed (h : JoinedOn s c w joined) (hrun : Run (machine strategy) ok init ls s) :
    ∃ connected receivers, s.socket.task.connection = some connected ∧
      Socket.Subscribed s.socket.trace connected w.listener.topic joined.pushRx receivers := by
  obtain ⟨ks, hks⟩ := socket_run hrun
  obtain ⟨connected, hconnected⟩ := Option.isSome_iff_exists.mp h.connected
  obtain ⟨receivers, hsubscribed⟩ :=
    (Socket.membersKnown_of_run hks hconnected).joined (h.joinedAt hrun)
  exact ⟨connected, receivers, hconnected, hsubscribed⟩

/-- Every broadcast that the web socket gave for the topic was taken, or waits for the member. -/
theorem broadcasts (h : JoinedOn s c w joined) (hrun : Run (machine strategy) ok init ls s)
    (hread : HasRead past s joined.pushRx joined.broadcastRx) :
    broadcastsTaken joined.pushRx (deliveries past) ++
        (s.broadcasts joined.broadcastRx.tx).unread joined.broadcastRx.next ++
        s.undelivered.filterMap (Socket.Effect.broadcast? joined.broadcastRx.tx) =
      Socket.broadcastsOn w.listener.topic (s.socket.trace.drop (joined.pushRx + 1)) := by
  obtain ⟨connected, receivers, _, hsubscribed⟩ := h.subscribed hrun
  obtain ⟨receivers', hmade, htx, hstart, htaken⟩ := hread.taken
  obtain rfl := Option.some.inj (hsubscribed.made.symm.trans hmade)
  have hlength := hread.le
  rw [← hsubscribed.all, htx, broadcastsInto_eq, htaken, BroadcastQueue.unread_eq hread.inTime,
    List.drop_append_of_le_length (Nat.le_trans hstart hlength)]
  congr 1
  rw [← List.drop_append_of_le_length (by rw [List.length_take]; omega), List.take_append_drop]

theorem broadcastOpen (h : JoinedOn s c w joined) (hrun : Run (machine strategy) ok init ls s)
    (hread : HasRead past s joined.pushRx joined.broadcastRx) :
    s.broadcastClosed joined.broadcastRx.tx = false := by
  obtain ⟨connected, receivers, hconnected, hsubscribed⟩ := h.subscribed hrun
  obtain ⟨receivers', hmade, htx, _⟩ := hread.taken
  obtain rfl := Option.some.inj (hsubscribed.made.symm.trans hmade)
  obtain ⟨sender, hsender, hsendertx⟩ := Option.map_eq_some_iff.mp hsubscribed.sender
  rw [broadcastClosed, hconnected, List.all_eq_false]
  exact ⟨sender, Dict.mem_values.mpr ⟨_, hsender⟩, by simp [hsendertx, htx]⟩

end JoinedOn

/-- A connection that a member has after a step was there before, when it was a member. -/
theorem JoinedOn.before (h : JoinedOn s' c w' joined')
    (hrun : Run (machine strategy) ok init ls s) (hstep : SystemStep strategy s label s')
    (hw : s.channels.lookup c = some w) (hj : w.task.joined? = some joined)
    (htx : joined.pushRx = joined'.pushRx) : JoinedOn s c w joined := by
  have hlt : joined.pushRx < s.socket.trace.length :=
    member_lt hrun ⟨_, w, hw, .inl ⟨joined, hj, rfl, rfl⟩⟩
  obtain ⟨more, hmore⟩ := hstep.trace_grows
  have hsame := h.same
  rw [← htx, ← hmore, List.drop_append_of_le_length hlt] at hsame
  refine ⟨hw, hj, ?_, fun e he => hsame e (List.mem_append_left _ he)⟩
  have hconnected := h.connected
  cases hstep.socket_cases with
  | kept heq => rwa [heq] at hconnected
  | stepped hl hsocket =>
      rwa [Socket.Task.isConnected, (Socket.step_quiet hl hsocket).2] at hconnected
  | selected _ _ hsocket =>
      obtain ⟨connected, hconnected⟩ := Option.isSome_iff_exists.mp hconnected
      cases Socket.select_change hsocket hconnected with
      | kept htask => simp [Socket.Task.isConnected, htask, Socket.Task.connection, Socket.Task.state]
      | @fresh e _ _ htrace hfresh =>
          obtain rfl : more = [e] := List.append_cancel_left (hmore.trans htrace)
          have hnot := hsame e (by simp)
          rw [hfresh] at hnot
          cases hnot

/-- The member polls: the branch of its broadcasts is not disabled by that. -/
theorem JoinedOn.broadcastEnabled_poll {read : Option TxId} (h : JoinedOn s c w joined)
    (hrun : Run (machine strategy) (fun s l => keepsUp c s l = true) init ls s)
    (hpoll : Channel.PollStep s.surroundings w w' read) (hw : w.task.broadcastDisabled = false) :
    w'.task.broadcastDisabled = false :=
  have hread := hasRead_of_run hrun h.receives
  hpoll.broadcastDisabled h.member hread.inTime (h.broadcastOpen hrun hread) hw

/-- Where a member keeps up, the branch of its broadcasts stays enabled. -/
theorem broadcastEnabled_of_run
    (h : Run (machine strategy) (fun s l => keepsUp c s l = true) init ls s)
    (hjoined : JoinedOn s c w joined) : w.task.broadcastDisabled = false := by
  induction h generalizing w joined with
  | nil =>
      have hw := hjoined.channel
      rw [lookup_init] at hw
      cases hw
  | @snoc ls s label s' hrun hkeeps hs ih =>
      have hstep := step_cases hs
      obtain ⟨w₀, hw₀, ⟨hlabel, hj⟩ | ⟨rfl, hcase⟩⟩ :=
        hstep.joined_cases hrun hjoined.channel hjoined.member
      · have hbefore := ih (hjoined.before hrun hstep hw₀ hj rfl)
        cases hstep.channel_cases hjoined.channel with
        | kept hw => rwa [Option.some.inj (hw.symm.trans hw₀)]
        | stepped hw hchannel =>
            cases Option.some.inj (hw.symm.trans hw₀)
            cases hchannel with
            | user | stateCommand | sendCommand => exact hbefore
            | poll => exact absurd rfl hlabel
            | forward | publish => rfl
            | fail => exact Channel.proceed_broadcastDisabled
        | spawned heffect hspawn => rw [hspawn]; rfl
      · cases hstep with
        | user hlabel => cases hlabel
        | @poll c w w' read hw hpoll =>
            have hw' := hjoined.channel
            rw [lookup_setChannel, if_pos rfl] at hw'
            cases hw'
            cases Option.some.inj (hw.symm.trans hw₀)
            cases hcase with
            | kept _ hj =>
                have hbefore := hjoined.before hrun (.poll hw hpoll) hw hj rfl
                exact hbefore.broadcastEnabled_poll hrun hpoll (ih hbefore)
            | read _ hj hjoined' =>
                have hbefore := hjoined.before hrun (.poll hw hpoll) hw hj (by rw [hjoined'])
                exact hbefore.broadcastEnabled_poll hrun hpoll (ih hbefore)
            | answered htask => exact hpoll.broadcastDisabled_answered htask hjoined.member

end System

end PhoenixChannels
