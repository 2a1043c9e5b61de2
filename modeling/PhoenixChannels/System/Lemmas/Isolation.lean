import Mathlib.Data.List.TakeWhile
import PhoenixChannels.System.Lemmas.Deliveries

/-!
# Pushes of earlier memberships

The server emits a push for one `phx_join` and tags it with its topic and join reference. All joins of
a channel have the same tags, so which of them a push is for cannot be read off the push.
-/

namespace PhoenixChannels

open Machine History

namespace Socket

/-! ## The joins of a channel, counted -/

def Origin.isJoin : Origin → Bool
  | join _ => true
  | _ => false

/-- How many `phx_join`s of a channel were written on the present connection. -/
def joinCount (key : JoinKey) (trace : List Entry) : Nat :=
  trace.foldl (fun count e => (if e.broadcastsConnected then 0 else count)
    + (e.written.filter fun x => x.1.key = key && x.2.isJoin).length) 0

/-- The number of the `phx_join` with which the membership of `tx` began: it was the last one when
the join was finished. -/
def joinNumber (key : JoinKey) (tx : TxId) (trace : List Entry) : Nat :=
  joinCount key (trace.takeWhile fun e => e.receivers?.map JoinedChannelReceivers.push ≠ some tx)

/-- The push that arrives at position `n` was emitted for the `emittedFor n`-th of the `phx_join`s
that were written with its tags. -/
def Emits (emittedFor : Nat → Nat) (trace : List Entry) : Prop :=
  Always (fun before e => ∀ push, e.input.pushed? = some push →
    1 ≤ emittedFor before.length ∧ emittedFor before.length ≤ joinCount push.key before) trace

instance (emittedFor : Nat → Nat) (trace : List Entry) : Decidable (Emits emittedFor trace) :=
  inferInstanceAs (Decidable (Always (fun before e => ∀ push ∈ e.input.pushed?,
    1 ≤ emittedFor before.length ∧ emittedFor before.length ≤ joinCount push.key before) trace))

variable {strategy : Option (Nat → Duration)} {ok : World → Label → Prop} {ls : List Label}
variable {w : World} {e : Entry} {trace : List Entry} {key : JoinKey} {tx : TxId} {i : Nat}
variable {push : Push}

theorem JoinsFinished.joinNumber_eq (h : JoinsFinished trace)
    (hat : joinedAt key trace = some i) :
    joinNumber key i trace = joinCount key (trace.take i) := by
  obtain ⟨e, join, receivers, he, hfinishes, _⟩ := h.of_joinedAt hat
  obtain ⟨hsplit, hlength⟩ := split_of_getElem? he
  -- no earlier iteration has made this queue
  have hearlier : ∀ f ∈ trace.take i,
      decide (f.receivers?.map JoinedChannelReceivers.push ≠ some i) = true := by
    intro f hf
    obtain ⟨j, hj⟩ := List.mem_iff_getElem?.mp hf
    have hlt : j < i := hlength ▸ (List.getElem?_eq_some_iff.mp hj).1
    rw [List.getElem?_take_of_lt hlt] at hj
    simp only [decide_eq_true_eq, ne_eq, Option.map_eq_some_iff, not_exists, not_and]
    intro receivers' hreceivers' hpush
    obtain ⟨join', hfinishes'⟩ := h.of_receivers hj hreceivers'
    exact absurd (hfinishes'.push.symm.trans hpush) (Nat.ne_of_lt hlt)
  unfold joinNumber
  conv_lhs => rw [hsplit]
  rw [List.takeWhile_append_of_pos hearlier, List.takeWhile_cons_of_neg, List.append_nil]
  simp [hfinishes.receivers?_eq, hfinishes.push]

theorem joinNumber_append {more : List Entry} (he : e ∈ trace)
    (hpush : e.receivers?.map JoinedChannelReceivers.push = some tx) :
    joinNumber key tx (trace ++ more) = joinNumber key tx trace := by
  unfold joinNumber
  rw [List.takeWhile_append, if_neg]
  intro hlength
  have hall := List.takeWhile_eq_self_iff.mp ((List.takeWhile_prefix _).eq_of_length hlength)
  have hnot := hall e he
  simp [hpush] at hnot

end Socket

namespace System

variable {strategy : Option (Nat → Duration)} {ok : System → Label → Prop} {ls : List Label}
variable {s : System} {emittedFor : Nat → Nat}

/-! ## The property and its condition -/

/-- No push that was emitted for an earlier membership of a channel comes to a later one. -/
structure MembershipsIsolated (emittedFor : Nat → Nat) (past : List (System × Label))
    (s : System) : Prop where
  /-- `handle_push` -/
  handed : Always (fun before e => ∀ tx push, e.handed? = some (tx, push) →
    Socket.joinNumber push.key tx before ≤ emittedFor before.length) s.socket.trace
  /-- `push_received`: what a membership takes arrived in that order, and was emitted for it. -/
  received (tx : TxId) : ∃ arrived : List (Nat × Push),
    arrived.Sublist (Socket.handedInto tx s.socket.trace) ∧
    arrived.map Prod.snd = pushesTaken tx (deliveries past) ∧
    ∀ x ∈ arrived, Socket.joinNumber x.2.key tx s.socket.trace ≤ emittedFor x.1
  /-- A `phx_close` that moves a channel out of `Joined` was emitted for its membership. -/
  closed {d : Delivery} {push : Push} : d ∈ deliveries past → d.arrival.push? = some push →
    push.eventPayload.event = .phoenix .close →
    ∃ n, (n, push) ∈ Socket.handedInto d.member s.socket.trace ∧
      Socket.joinNumber push.key d.member s.socket.trace ≤ emittedFor n

/-- A push does not arrive when a later join of its channel was already finished on the connection,
and the channel not left, than the one it was emitted for. -/
def arrivesInTime (emittedFor : Nat → Nat) (s : System) : Label → Bool
  | .select (.socketResult result sent) =>
      (Socket.Input.socketResult result sent).pushed?.all fun push =>
        (Socket.joinedAt push.key s.socket.trace).all fun i =>
          Socket.joinCount push.key (s.socket.trace.take i) ≤ emittedFor s.socket.trace.length
  | _ => true

/-! ## Along a run -/

theorem handed_inTime
    (h : Run (machine strategy) (fun s l => arrivesInTime emittedFor s l = true) init ls s) :
    Always (fun before e => ∀ tx push, e.handed? = some (tx, push) →
      Socket.joinedAt push.key before = some tx ∧
        Socket.joinNumber push.key tx before ≤ emittedFor before.length) s.socket.trace := by
  refine h.invariant_of_run (I := fun s => Always (fun before e => ∀ tx push,
    e.handed? = some (tx, push) → Socket.joinedAt push.key before = some tx ∧
      Socket.joinNumber push.key tx before ≤ emittedFor before.length) s.socket.trace) .nil ?_
  intro ls s label s' hrun ih hok hs
  obtain ⟨_, hsocket⟩ := socket_run hrun
  obtain ⟨_, hsocket'⟩ := socket_run (hrun.snoc hok hs)
  cases (step_cases hs).trace_cases with
  | kept htrace => rwa [htrace]
  | @selected event input taken e hlabel hreceive htrace hinput =>
      rw [htrace]
      refine ih.append fun tx push hhanded => ?_
      rw [Socket.handed?_of_run hsocket' s.socket.trace e [] htrace, hinput] at hhanded
      obtain ⟨p, hpushed, hp⟩ := Option.bind_eq_some_iff.mp hhanded
      obtain ⟨i, hat, hpair⟩ := Option.map_eq_some_iff.mp hp
      cases hpair
      refine ⟨hat, ?_⟩
      rw [(Socket.joinsFinished_of_run hsocket).joinNumber_eq hat]
      subst hlabel
      cases hreceive with
      | socketResult => simpa [arrivesInTime, hpushed, hat] using hok
      | _ => cases hpushed

theorem mem_handedInto {tx : TxId} {trace : List Socket.Entry} {x : Nat × Push}
    (h : x ∈ Socket.handedInto tx trace) :
    ∃ e, (trace)[x.1]? = some e ∧ e.handed? = some (tx, x.2) := by
  obtain ⟨⟨e, n⟩, hmem, hx⟩ := List.mem_filterMap.mp h
  obtain ⟨⟨tx', push⟩, hhanded, hpair⟩ := Option.bind_eq_some_iff.mp hx
  simp only [Option.ite_none_right_eq_some, Option.some.injEq] at hpair
  obtain ⟨rfl, rfl⟩ := hpair
  exact ⟨e, List.mk_mem_zipIdx_iff_getElem?.mp hmem, hhanded⟩

theorem handedInto_inTime {tx : TxId} {x : Nat × Push}
    (h : Run (machine strategy) (fun s l => arrivesInTime emittedFor s l = true) init ls s)
    (hx : x ∈ Socket.handedInto tx s.socket.trace) :
    Socket.joinNumber x.2.key tx s.socket.trace ≤ emittedFor x.1 := by
  obtain ⟨_, hsocket⟩ := socket_run h
  obtain ⟨e, he, hhanded⟩ := mem_handedInto hx
  obtain ⟨hsplit, hlength⟩ := Socket.split_of_getElem? he
  obtain ⟨hat, hle⟩ := handed_inTime h _ _ _ hsplit tx x.2 hhanded
  have hfinished := Socket.joinsFinished_of_run hsocket
  rw [hsplit] at hfinished
  have hbefore : Socket.JoinsFinished (s.socket.trace.take x.1) := hfinished.of_append
  obtain ⟨f, join, receivers, hf, hfinishes, _⟩ := hbefore.of_joinedAt hat
  rw [hlength] at hle
  rw [hsplit, Socket.joinNumber_append (List.mem_of_getElem? hf)]
  · exact hle
  · simp [hfinishes.receivers?_eq, hfinishes.push]

theorem membershipsIsolated_of_run
    (h : Run (machine strategy) (fun s l => arrivesInTime emittedFor s l = true) init ls s) :
    MembershipsIsolated emittedFor ((machine strategy).steps init ls) s := by
  have htaken : ∀ tx, (pushesTaken tx (deliveries ((machine strategy).steps init ls))).Sublist
      ((Socket.handedInto tx s.socket.trace).map Prod.snd) := by
    intro tx
    refine List.Sublist.trans ?_ (account_sublist h tx)
    rw [account, List.append_assoc]
    exact List.sublist_append_left _ _
  constructor
  · intro before e after hsplit tx push hhanded
    exact (handed_inTime h before e after hsplit tx push hhanded).2
  · intro tx
    obtain ⟨arrived, hsublist, harrived⟩ := List.sublist_map_iff.mp (htaken tx)
    exact ⟨arrived, hsublist, harrived.symm, fun x hx => handedInto_inTime h (hsublist.subset hx)⟩
  · intro d push hd hpush _
    have hmem : push ∈ pushesTaken d.member (deliveries ((machine strategy).steps init ls)) :=
      List.mem_filterMap.mpr ⟨d, hd, by simp [hpush]⟩
    obtain ⟨x, hx, rfl⟩ := List.mem_map.mp ((htaken d.member).subset hmem)
    exact ⟨x.1, hx, handedInto_inTime h hx⟩

end System

end PhoenixChannels
