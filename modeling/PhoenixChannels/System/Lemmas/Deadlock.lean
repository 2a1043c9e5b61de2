import PhoenixChannels.System.Lemmas.Runs

/-!
# Waiting on each other

The socket listener waits while the push queue of a channel is full, and a channel listener waits
while a queue of the socket is full. Where both wait on each other, neither goes on.
-/

namespace PhoenixChannels

/-- The call sends into the queue of calls and casts, not into that of joins and leaves. -/
def Channel.SocketCall.sends : Channel.SocketCall → Bool
  | cast _ _ _ | call _ _ _ => true
  | join _ _ _ _ | leaveJoining _ _ | leaveJoined _ _ => false

/-- The call at which the task is suspended. -/
def Channel.Task.call? : Channel.Task → Option Channel.SocketCall
  | calling call => some call
  | _ => none

/-- The socket listener suspends itself on a push that it received, and does nothing else. -/
theorem Socket.pushing_of_select {strategy : Option (Nat → Duration)} {w w' : World} {input : Input}
    {connected : Connected} {tx : TxId} {push : Push}
    (h : (machine strategy).step w (.select input) = some w')
    (htask : w'.task = .pushing connected tx push) :
    ∃ received sent, input = .socketResult (.ok received) sent ∧
      w.task.connection = some connected ∧ Message.decode received = some (.ok (.push push)) ∧
      connected.pushTx push = some tx ∧ w'.effects = w.effects := by
  cases step_cases h with
  | @connected c input iteration hselecting hfresh hiter =>
      cases iteration with
      | push c₁ tx₁ push₁ =>
          cases htask
          cases hiter with
          | push p tx hdecode htx =>
              refine ⟨_, _, rfl, by rw [hselecting]; rfl, hdecode, htx, ?_⟩
              rw [record_effects]
              exact List.append_nil _
      | next | exit | panic => cases htask
  | @unconnected state input iteration hselecting hs hfresh hiter =>
      cases iteration with
      | push => cases hiter
      | next | exit | panic => cases htask

namespace System

open Machine

/-! ## The property -/

/-- The length of a queue of the socket. -/
def queued (s : System) (sends : Bool) : Nat :=
  if sends then s.channelSendCommandRx.length else s.channelStateCommandRx.length

/-- The listener holds the receiver of a push queue that is full. -/
def holdsFull (s : System) (w : Channel.World) (tx : TxId) : Bool :=
  s.holdsPushRx w tx && pushCapacity ≤ (s.pushRx tx).length

/-- The socket listener is suspended in `handle_push`, on the full push queue of the listener. -/
def waitsOnPush (s : System) (w : Channel.World) : Bool :=
  match s.socket.task with
  | .pushing _ tx _ => s.holdsFull w tx
  | _ => false

/-- The listener is suspended in a call into the socket whose queue is full. -/
def waitsOnSocket (s : System) (w : Channel.World) : Bool :=
  w.task.call?.any (fun call => socketCapacity ≤ s.queued call.sends)

/-- The socket listener and a channel listener do not wait on each other. -/
def NoCyclicWait (s : System) : Prop :=
  ∀ c w, s.channels.lookup c = some w → s.waitsOnPush w = true → s.waitsOnSocket w = false

/-! ## The condition -/

/-- The next poll takes a command that goes into a full queue of the socket. -/
def takesIntoFull (s : System) (w : Channel.World) : Bool :=
  match w.task, w.stateCommandRx, w.sendCommandRx with
  | .selecting _ (.stateCommand :: _) _, .leave _ :: _, _ => socketCapacity ≤ s.queued false
  | .selecting _ (.sendCommand :: _) _, _, _ :: _ => socketCapacity ≤ s.queued true
  | _, _, _ => false

/-- A call of another listener, on which the socket listener waits, needs the last place of a
queue. -/
def lastPlaceNeeded (s : System) (c : JoinReference) (sends : Bool) : Bool :=
  s.queued sends + 1 = socketCapacity && s.channels.keys.any (fun c' => c' ≠ c &&
    (s.channels.lookup c').any (fun w =>
      s.waitsOnPush w && w.task.call?.any (fun call => call.sends = sends)))

/-- The socket listener does not take a push for a full queue whose listener waits on it; a listener
on which it waits takes no command into a full queue of the socket; and no other listener takes the
last place in the queue that this one needs. -/
def waitsInTurn (s : System) : Label → Bool
  | .select (.socketResult (.ok received) _) =>
      match s.socket.task.connection, Message.decode received with
      | some connected, some (.ok (.push push)) =>
          (connected.pushTx push).all (fun tx => (Dict.values s.channels).all (fun w =>
            !(s.holdsFull w tx && s.waitsOnSocket w)))
      | _, _ => true
  | .poll c => (s.channels.lookup c).all (fun w => !(s.waitsOnPush w && s.takesIntoFull w))
  | .forward c => (s.channels.lookup c).all (fun w =>
      w.task.call?.all (fun call => !s.lastPlaceNeeded c call.sends))
  | _ => true

variable {strategy : Option (Nat → Duration)} {ls : List Label}
variable {s s' : System} {label : Label} {c : JoinReference} {w w' : Channel.World} {tx : TxId}

/-! ## What waits -/

theorem waitsOnPush_iff : s.waitsOnPush w = true ↔ ∃ connected tx push,
    s.socket.task = .pushing connected tx push ∧ s.holdsFull w tx = true := by
  unfold waitsOnPush
  split
  · rename_i connected tx push htask
    constructor
    · exact fun h => ⟨connected, tx, push, htask, h⟩
    · rintro ⟨connected', tx', push', htask', h⟩
      cases htask.symm.trans htask'
      exact h
  · rename_i hne
    constructor
    · intro h
      cases h
    · rintro ⟨connected, tx, push, htask, _⟩
      exact absurd htask (hne connected tx push)

theorem waitsOnSocket_iff : s.waitsOnSocket w = true ↔
    ∃ call, w.task.call? = some call ∧ socketCapacity ≤ s.queued call.sends := by
  simp [waitsOnSocket, Option.any_eq_true]

theorem holdsFull_congr (hjoined : w'.task.joined? = w.task.joined?)
    (hjoining : w'.task.joining? = w.task.joining?) : s.holdsFull w' tx = s.holdsFull w tx := by
  simp only [holdsFull, holdsPushRx, hjoined, hjoining]

theorem holdsFull_popPush {read : Option TxId} {c' : JoinReference} {w₁ : Channel.World}
    (h : ((s.popPush read).setChannel c' w₁).holdsFull w tx = true) : s.holdsFull w tx = true := by
  cases read with
  | none => exact h
  | some tx' =>
      simp only [holdsFull, Bool.and_eq_true, decide_eq_true_eq] at h ⊢
      refine ⟨h.1, le_trans h.2 ?_⟩
      simp only [popPush, setChannel, Function.update_apply]
      split
      · rename_i heq
        simp [heq]
      · exact Nat.le_refl _

theorem waitsOnPush_popPush {read : Option TxId} {c' : JoinReference} {w₁ : Channel.World}
    (h : ((s.popPush read).setChannel c' w₁).waitsOnPush w = true) : s.waitsOnPush w = true := by
  obtain ⟨connected, tx, push, htask, hfull⟩ := waitsOnPush_iff.mp h
  refine waitsOnPush_iff.mpr ⟨connected, tx, push, ?_, holdsFull_popPush hfull⟩
  simpa [setChannel] using htask

/-- A listener on which the socket listener waits comes to a call of its own by a poll that takes a
command. -/
theorem takesIntoFull_of_poll {env : Channel.Surroundings} {read : Option TxId}
    (h : Channel.PollStep env w w' read) (hpush : s.waitsOnPush w' = true)
    (hsocket : s.waitsOnSocket w' = true) :
    s.waitsOnPush w = true ∧ s.takesIntoFull w = true := by
  obtain ⟨call, hcall, hqueue⟩ := waitsOnSocket_iff.mp hsocket
  cases h with
  | breakOk | round | pending | mismatch => cases hcall
  | @ready state branch rest disabled w₁ flow htask hready =>
      cases flow with
      | next | exit | panic => cases hcall
      | call call' =>
          obtain rfl : call' = call := Option.some.inj hcall
          obtain ⟨connected, tx, push, hpushing, hfull⟩ := waitsOnPush_iff.mp hpush
          cases hready.call_cases rfl with
          | join => simp [holdsFull, holdsPushRx, Channel.World.proceed, Channel.Task.joined?,
              Channel.Task.joining?] at hfull
          | leaveJoining hrx | leaveJoined hrx | cast hrx | call hrx =>
              constructor
              · refine waitsOnPush_iff.mpr ⟨connected, tx, push, hpushing, ?_⟩
                rw [← hfull]
                exact holdsFull_congr (by rw [htask]; rfl) (by rw [htask]; rfl)
              · simpa [takesIntoFull, htask, hrx, Channel.SocketCall.sends] using hqueue

/-! ## The invariant -/

/-- Where the socket listener suspends itself, no listener that holds the full queue waits on it. -/
theorem NoCyclicWait.select (hok : waitsInTurn s label = true) {event : SocketEvent}
    {input : Socket.Input} {taken : System} {socket : Socket.World} (hlabel : label = .select event)
    (hreceive : Receive s event input taken)
    (hselect : (Socket.machine strategy).step s.socket (.select input) = some socket) :
    NoCyclicWait (taken.setSocket socket) := by
  intro c w hw hpush
  obtain ⟨connected, tx, push, htask, hfull⟩ := waitsOnPush_iff.mp hpush
  rw [setSocket_socket] at htask
  obtain ⟨received, sent, rfl, hconnection, hdecode, htx, heffects⟩ :=
    Socket.pushing_of_select hselect htask
  rw [setSocket_of_running (by rw [htask]; rfl)] at hw hfull ⊢
  cases hreceive with
  | socketResult =>
      subst hlabel
      simp only [waitsInTurn, hconnection, hdecode, htx, Option.all_some, List.all_eq_true,
        Bool.not_eq_true', Bool.and_eq_false_iff] at hok
      have hmem : w ∈ Dict.values s.channels := Dict.mem_values.mpr ⟨c, hw⟩
      refine (hok w hmem).resolve_left ?_
      simp only [holdsFull, holdsPushRx, heffects] at hfull ⊢
      simp [hfull]

/-- Where a queue takes a command, no listener that the socket listener waits on needs its place. -/
theorem NoCyclicWait.forward {t : System} {call : Channel.SocketCall} (ih : NoCyclicWait s)
    (hok : waitsInTurn s (.forward c) = true) (hw : s.channels.lookup c = some w)
    (htask : w.task = .calling call) (hchannels : t.channels = s.channels)
    (hsocket : t.socket = s.socket) (hpushRx : t.pushRx = s.pushRx)
    (hqueued : ∀ sends, t.queued sends = s.queued sends + if sends = call.sends then 1 else 0)
    (hnext : w'.task.call? = none) : NoCyclicWait (t.setChannel c w') := by
  intro c₁ w₁ hw₁ hpush
  rw [lookup_setChannel] at hw₁
  split at hw₁
  · cases hw₁
    simp [waitsOnSocket, hnext]
  rename_i hne
  rw [hchannels] at hw₁
  have hpush : s.waitsOnPush w₁ = true := by
    simpa only [waitsOnPush, holdsFull, holdsPushRx, setChannel, hsocket, hpushRx] using hpush
  have hbefore := ih c₁ w₁ hw₁ hpush
  refine Bool.eq_false_iff.mpr fun hafter => ?_
  obtain ⟨call₁, hcall₁, hlength⟩ := waitsOnSocket_iff.mp hafter
  have hlength : socketCapacity ≤ t.queued call₁.sends := hlength
  have hroom : ¬ socketCapacity ≤ s.queued call₁.sends := fun h =>
    Bool.eq_false_iff.mp hbefore (waitsOnSocket_iff.mpr ⟨call₁, hcall₁, h⟩)
  rw [hqueued] at hlength
  have hsame : call₁.sends = call.sends := by
    by_contra hdiffer
    rw [if_neg hdiffer] at hlength
    exact hroom hlength
  rw [hsame] at hlength hroom
  rw [if_pos rfl] at hlength
  have hlast : s.queued call.sends + 1 = socketCapacity :=
    Nat.le_antisymm (Nat.lt_of_not_le hroom) hlength
  have hneeded : s.lastPlaceNeeded c call.sends = true := by
    simp only [lastPlaceNeeded, Bool.and_eq_true, decide_eq_true_eq, List.any_eq_true,
      Option.any_eq_true]
    refine ⟨hlast, c₁, ?_, hne, w₁, hw₁, hpush, call₁, hcall₁, hsame⟩
    exact AList.lookup_isSome.mp (by simp [hw₁])
  simp [waitsInTurn, hw, htask, Channel.Task.call?, hneeded] at hok

theorem NoCyclicWait.changed (ih : NoCyclicWait s) (hw : s.channels.lookup c = some w)
    (htask : w'.task = w.task) : NoCyclicWait (s.setChannel c w') := by
  intro c₁ w₁ hw₁ hpush
  rw [lookup_setChannel] at hw₁
  have hwaits : s.waitsOnPush w₁ = true := hpush
  change s.waitsOnSocket w₁ = false
  split at hw₁
  · cases hw₁
    simp only [waitsOnPush, holdsFull, holdsPushRx, waitsOnSocket, htask] at hwaits ⊢
    exact ih c w hw hwaits
  · exact ih c₁ w₁ hw₁ hwaits

theorem NoCyclicWait.user (ih : NoCyclicWait s) (h : UserStep s s') : NoCyclicWait s' := by
  cases h with
  | caller | socketCommand | channelSpawn => exact ih
  | channel hw | stateCommand hw | sendCommand hw => exact ih.changed hw rfl

theorem NoCyclicWait.step (ih : NoCyclicWait s) (h : SystemStep strategy s label s')
    (hok : waitsInTurn s label = true) : NoCyclicWait s' := by
  cases h with
  | elapse => exact ih
  | user _ h => exact ih.user h
  | select hreceive hselect => exact .select hok rfl hreceive hselect
  | spawned heffect =>
      intro c w hw hpush
      rw [Dict.lookup_insert_eq] at hw
      split at hw
      · cases hw
        rfl
      · exact ih c w hw hpush
  | delivered => exact ih
  | pushed | pushedClosed | publish =>
      intro c w hw hpush
      cases hpush
  | @poll c w w' read hw hpoll =>
      intro c₁ w₁ hw₁ hpush
      refine Bool.eq_false_iff.mpr fun hsocket => ?_
      have hsocket : s.waitsOnSocket w₁ = true := by
        cases read <;> exact hsocket
      have hpush := waitsOnPush_popPush hpush
      rw [lookup_setChannel] at hw₁
      split at hw₁
      · cases hw₁
        obtain ⟨hwaits, htakes⟩ := takesIntoFull_of_poll hpoll hpush hsocket
        simp [waitsInTurn, hw, hwaits, htakes] at hok
      · rw [popPush_channels] at hw₁
        exact Bool.eq_false_iff.mp (ih c₁ w₁ hw₁ hpush) hsocket
  | @forwardState c w call command hw htask hrunning hcommand =>
      have hcall : call.sends = false := by
        cases call <;> first | rfl | cases hcommand
      refine ih.forward (t := { s with
        fresh := s.fresh + 1
        channelStateCommandRx := s.channelStateCommandRx ++ [command] }) hok hw htask rfl rfl rfl
        ?_ rfl
      intro sends
      cases sends <;> simp [queued, hcall]
  | @forwardSend c w call command hw htask hrunning hcommand =>
      have hcall : call.sends = true := by
        cases call <;> first | rfl | cases hcommand
      refine ih.forward (t := { s with
        fresh := s.fresh + 1
        channelSendCommandRx := s.channelSendCommandRx ++ [command] }) hok hw htask rfl rfl rfl
        ?_ rfl
      intro sends
      cases sends <;> simp [queued, hcall]
  | fail hw htask hdead =>
      intro c w hw hpush
      obtain ⟨connected, tx, push, hpushing, _⟩ := waitsOnPush_iff.mp hpush
      have hpushing : s.socket.task = .pushing connected tx push := hpushing
      rw [hpushing] at hdead
      cases hdead
  | publishChannel hw htask =>
      intro c₁ w₁ hw₁ hpush
      rw [lookup_setChannel] at hw₁
      split at hw₁
      · cases hw₁
        rfl
      · exact ih c₁ w₁ hw₁ hpush

theorem noCyclicWait_of_run
    (h : Run (machine strategy) (fun s label => waitsInTurn s label = true) init ls s) :
    NoCyclicWait s := by
  refine h.invariant (I := NoCyclicWait) ?_ fun s label s' ih hok hs => ih.step (step_cases hs) hok
  intro c w hw
  rw [lookup_init] at hw
  cases hw

end System

end PhoenixChannels
