import PhoenixChannels.Channel.Lemmas.Arrivals
import PhoenixChannels.Socket.Lemmas.Arrivals
import PhoenixChannels.System.Lemmas.Runs

/-!
# Deliveries

What becomes of a push between `handle_push` and the channel listener that takes it: every push that
is handed over waits in the queue of its member until it is taken, in order.
-/

namespace PhoenixChannels

/-- A message that a channel listener takes; `member` is the push queue of its membership. -/
structure Delivery where
  channel : JoinReference
  member : TxId
  arrival : Arrival

namespace System

open Machine

/-! ## Messages on their way -/

/-- The message that a step takes. -/
def taken? (s : System) : Label → Option Delivery
  | .poll c => (s.channels.lookup c).bind fun w =>
      (w.takes s.surroundings).map fun (tx, arrival) => ⟨c, tx, arrival⟩
  | _ => none

/-- All that channel listeners have taken, in order. -/
def deliveries (past : List (System × Label)) : List Delivery :=
  past.filterMap fun (s, label) => s.taken? label

def pushesTaken (tx : TxId) (deliveries : List Delivery) : List Push :=
  deliveries.filterMap fun d => if d.member = tx then d.arrival.push? else none

/-- The push that `handle_push` is sending into `tx`. -/
def inFlight (s : System) (tx : TxId) : List Push :=
  match s.socket.task with
  | .pushing _ tx' push => if tx' = tx then [push] else []
  | _ => []

/-- The pushes that were taken from a queue, and those that still can be. -/
def account (tx : TxId) (past : List (System × Label)) (s : System) : List Push :=
  pushesTaken tx (deliveries past) ++ s.pushRx tx ++ s.inFlight tx

variable {strategy : Option (Nat → Duration)} {ok : System → Label → Prop} {ls : List Label}
variable {s s' taken : System} {label : Label} {c : JoinReference} {tx : TxId}
variable {past : List (System × Label)} {event : SocketEvent} {input : Socket.Input}

theorem deliveries_snoc :
    deliveries (past ++ [(s, label)]) = deliveries past ++ (s.taken? label).toList := by
  cases h : s.taken? label <;> simp [deliveries, h]

theorem pushesTaken_append {ds ds' : List Delivery} :
    pushesTaken tx (ds ++ ds') = pushesTaken tx ds ++ pushesTaken tx ds' :=
  List.filterMap_append

theorem taken?_eq_none (h : ∀ c, label ≠ .poll c) : s.taken? label = none := by
  cases label with
  | poll c => exact absurd rfl (h c)
  | _ => rfl

/-- A poll takes the message out of its queue and sends its event. -/
theorem poll_step (h : (machine strategy).step s (.poll c) = some s') :
    ∃ w w' read, s.channels.lookup c = some w ∧ w.poll s.surroundings = some (w', read) ∧
      s' = (s.popPush read).setChannel c w' ∧
      w'.events = w.events ++ ((s.taken? (.poll c)).map fun d => d.arrival.eventPayload).toList ∧
      read = (s.taken? (.poll c)).bind fun d => d.arrival.push?.map fun _ => d.member := by
  simp only [machine, step, pollStep] at h
  split at h
  · rename_i w hw
    obtain ⟨⟨w', read⟩, hpoll, rfl⟩ := Option.map_eq_some_iff.mp h
    obtain ⟨hevents, hread⟩ := Channel.poll_takes hpoll
    refine ⟨w, w', read, hw, hpoll, rfl, ?_, ?_⟩
    · rw [hevents]
      simp [taken?, hw, Function.comp_def]
    · rw [hread]
      cases htakes : w.takes s.surroundings <;> simp [taken?, hw, htakes]
  · cases h

/-! ## The account of a push queue -/

theorem taken_push {d : Delivery} {push : Push} (h : s.taken? (.poll c) = some d)
    (hpush : d.arrival.push? = some push) :
    d.channel = c ∧ ∃ rest, s.pushRx d.member = push :: rest := by
  simp only [taken?, Option.bind_eq_some_iff, Option.map_eq_some_iff] at h
  obtain ⟨w, _, ⟨tx, arrival⟩, htakes, rfl⟩ := h
  refine ⟨rfl, ?_⟩
  unfold Channel.World.takes at htakes
  split at htakes
  · obtain ⟨p, hhead, hpair⟩ := Option.map_eq_some_iff.mp htakes
    cases hpair
    cases hpush
    obtain ⟨rest, hrest⟩ := List.head?_eq_some_iff.mp hhead
    exact ⟨rest, hrest⟩
  · split at htakes <;> cases htakes
    cases hpush
  · cases htakes

/-- What a step does to the account of a push queue. -/
inductive AccountChange (tx : TxId) (past : List (System × Label)) (s : System) (label : Label)
    (s' : System) : Prop
  | kept : account tx (past ++ [(s, label)]) s' = account tx past s →
      Socket.handedInto tx s'.socket.trace = Socket.handedInto tx s.socket.trace →
      AccountChange tx past s label s'
  | handed (n : Nat) (push : Push) :
      account tx (past ++ [(s, label)]) s' = account tx past s ++ [push] →
      Socket.handedInto tx s'.socket.trace = Socket.handedInto tx s.socket.trace ++ [(n, push)] →
      AccountChange tx past s label s'
  /-- The receiver is gone. -/
  | dropped (push : Push) : s.pushRxAlive tx = false →
      account tx past s = account tx (past ++ [(s, label)]) s' ++ [push] →
      Socket.handedInto tx s'.socket.trace = Socket.handedInto tx s.socket.trace →
      AccountChange tx past s label s'

theorem inFlight_of_selecting {state : Socket.State} (h : s.socket.task = .selecting state) :
    s.inFlight tx = [] := by
  simp [inFlight, h]

theorem inFlight_pushing {connected : Socket.Connected} {tx' : TxId} {push : Push}
    (h : s.socket.task = .pushing connected tx' push) :
    s.inFlight tx = if tx' = tx then [push] else [] := by
  simp [inFlight, h]

theorem select_selecting {v v' : Socket.World} {input : Socket.Input}
    (h : (Socket.machine strategy).step v (.select input) = some v') :
    ∃ state, v.task = .selecting state := by
  obtain ⟨state, _, htask, _⟩ := Socket.step_select h
  exact ⟨state, htask⟩

@[simp] theorem setSocket_pushRx (w : Socket.World) : (s.setSocket w).pushRx = s.pushRx := by
  unfold setSocket
  split <;> rfl

theorem Receive.pushRx_eq (h : Receive s event input taken) : taken.pushRx = s.pushRx := by
  cases h <;> rfl

theorem AccountChange.of_eq (hlabel : ∀ c, label ≠ .poll c) (hqueue : s'.pushRx tx = s.pushRx tx)
    (hflight : s'.inFlight tx = s.inFlight tx) (htrace : s'.socket.trace = s.socket.trace) :
    AccountChange tx past s label s' := by
  refine .kept ?_ (by rw [htrace])
  rw [account, account, deliveries_snoc, taken?_eq_none hlabel, hqueue, hflight]
  simp

theorem account_select (hreceive : Receive s event input taken) {socket : Socket.World}
    (hstep : (Socket.machine strategy).step s.socket (.select input) = some socket) :
    AccountChange tx past s (.select event) (taken.setSocket socket) := by
  obtain ⟨state, htask⟩ := select_selecting hstep
  obtain ⟨e, htrace, hhanded⟩ := Socket.select_handed hstep
  have haccount : ∀ flight, (taken.setSocket socket).inFlight tx = flight →
      account tx (past ++ [(s, .select event)]) (taken.setSocket socket) =
        account tx past s ++ flight := by
    rintro flight rfl
    rw [account, account, deliveries_snoc, taken?_eq_none (by simp), setSocket_pushRx,
      hreceive.pushRx_eq, inFlight_of_selecting htask]
    simp
  have hflight : (taken.setSocket socket).inFlight tx =
      (e.handed?.bind fun x => if x.1 = tx then some x.2 else none).toList := by
    cases hcase : e.handed? with
    | some x =>
        obtain ⟨tx', push⟩ := x
        obtain ⟨connected, hpushing⟩ := (hhanded tx' push).mp hcase
        rw [inFlight_pushing (by rw [setSocket_socket]; exact hpushing)]
        by_cases h : tx' = tx <;> simp [h]
    | none =>
        simp only [inFlight, setSocket_socket]
        split
        · rename_i connected tx' push hpushing
          have hsome := (hhanded tx' push).mpr ⟨connected, hpushing⟩
          rw [hcase] at hsome
          cases hsome
        · rfl
  have hinto := Socket.handedInto_append tx s.socket.trace e
  rw [← htrace] at hinto
  cases hcase : e.handed? with
  | none =>
      rw [hcase] at hflight hinto
      refine .kept ?_ ?_
      · simpa using haccount _ hflight
      · simpa using hinto
  | some x =>
      obtain ⟨tx', push⟩ := x
      rw [hcase] at hflight hinto
      by_cases h : tx' = tx
      · refine .handed s.socket.trace.length push ?_ ?_
        · simpa [h] using haccount _ hflight
        · simpa [h] using hinto
      · refine .kept ?_ ?_
        · simpa [h] using haccount _ hflight
        · simpa [h] using hinto

theorem account_poll (h : (machine strategy).step s (.poll c) = some s') :
    AccountChange tx past s (.poll c) s' := by
  obtain ⟨w, w', read, _, _, rfl, _, hread⟩ := poll_step h
  have hsocket : ((s.popPush read).setChannel c w').socket = s.socket := by simp [setChannel]
  refine .kept ?_ (by rw [hsocket])
  have hflight : ((s.popPush read).setChannel c w').inFlight tx = s.inFlight tx := by
    simp only [inFlight, hsocket]
  have hqueue : pushesTaken tx (s.taken? (.poll c)).toList ++
      ((s.popPush read).setChannel c w').pushRx tx = s.pushRx tx := by
    cases htaken : s.taken? (.poll c) with
    | none =>
        rw [htaken] at hread
        subst hread
        rfl
    | some d =>
        rw [htaken] at hread
        cases hpush : d.arrival.push? with
        | none =>
            have hread : read = none := by simpa [hpush] using hread
            subst hread
            simp [pushesTaken, hpush, popPush, setChannel]
        | some push =>
            have hread : read = some d.member := by simpa [hpush] using hread
            subst hread
            obtain ⟨_, rest, hrest⟩ := taken_push htaken hpush
            by_cases hmember : d.member = tx
            · subst hmember
              simp [pushesTaken, hpush, popPush, setChannel, hrest]
            · have hne : tx ≠ d.member := Ne.symm hmember
              simp [pushesTaken, hmember, hne, popPush, setChannel]
  rw [account, account, deliveries_snoc, pushesTaken_append, hflight, List.append_assoc
    (pushesTaken tx (deliveries past)), hqueue]

theorem account_step (tx : TxId) (past : List (System × Label))
    (h : (machine strategy).step s label = some s') :
    AccountChange tx past s label s' := by
  have hstep := step_cases h
  cases hstep with
  | poll => exact account_poll h
  | select hreceive hselect => exact account_select hreceive hselect
  | user hlabel huser =>
      have hpoll : ∀ c, label ≠ .poll c := by
        rintro c rfl
        cases hlabel
      cases huser <;> exact .of_eq hpoll rfl rfl rfl
  | @pushed connected tx' push htask =>
      refine .kept ?_ rfl
      rw [account, account, deliveries_snoc, taken?_eq_none (by simp), inFlight_pushing htask]
      by_cases heq : tx' = tx
      · subst heq
        simp [inFlight]
      · have hne : tx ≠ tx' := Ne.symm heq
        simp [inFlight, heq, hne]
  | @pushedClosed connected tx' push htask halive =>
      by_cases heq : tx' = tx
      · subst heq
        refine .dropped push halive ?_ rfl
        rw [account, account, deliveries_snoc, taken?_eq_none (by simp), inFlight_pushing htask]
        simp [inFlight]
      · refine .of_eq (by simp) rfl ?_ rfl
        simp [inFlight, htask, heq]
  | publish htask =>
      refine .of_eq (by simp) rfl ?_ rfl
      simp [inFlight, htask]
  | _ => exact .of_eq (by simp) rfl rfl rfl

theorem AccountChange.sublist (h : AccountChange tx past s label s')
    (hsublist : (account tx past s).Sublist ((Socket.handedInto tx s.socket.trace).map Prod.snd)) :
    (account tx (past ++ [(s, label)]) s').Sublist
      ((Socket.handedInto tx s'.socket.trace).map Prod.snd) := by
  cases h with
  | kept haccount hhanded => rwa [haccount, hhanded]
  | handed n push haccount hhanded =>
      rw [haccount, hhanded, List.map_append]
      exact hsublist.append (List.Sublist.refl _)
  | dropped push _ haccount hhanded =>
      rw [hhanded]
      rw [haccount] at hsublist
      exact (List.sublist_append_left _ _).trans hsublist

/-- What was taken from a push queue, and what can still be taken, was handed over in that order. -/
theorem account_sublist (h : Run (machine strategy) ok init ls s) (tx : TxId) :
    (account tx ((machine strategy).steps init ls) s).Sublist
      ((Socket.handedInto tx s.socket.trace).map Prod.snd) := by
  induction h with
  | nil => exact List.Sublist.refl _
  | snoc hrun _ hs ih =>
      rw [hrun.steps_snoc]
      exact (account_step tx _ hs).sublist ih

end System

end PhoenixChannels
