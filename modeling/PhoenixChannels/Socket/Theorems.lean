import PhoenixChannels.Socket.Lemmas.FlatMaps
import PhoenixChannels.Socket.Lemmas.Heartbeats
import PhoenixChannels.Socket.Lemmas.Losses
import PhoenixChannels.Socket.Lemmas.Promises
import PhoenixChannels.Socket.Lemmas.Replies
import PhoenixChannels.Socket.Lemmas.UserInputs

/-!
# Theorems on the socket listener

What holds of every run of the socket listener whose steps meet a condition, with everything
around the listener left open; and runs that do not meet it.
-/

namespace PhoenixChannels.Socket

open Machine

variable {strategy : Option (Nat → Duration)} {ls : List Label} {w : World}

/-! ## Inputs of the sample runs -/

def uuid₀ : Uuid := ⟨"00000000-0000-4000-8000-000000000000", by decide⟩

def uuid₁ : Uuid := ⟨"11111111-1111-4111-8111-111111111111", by decide⟩

def uuid₂ : Uuid := ⟨"22222222-2222-4222-8222-222222222222", by decide⟩

def uuid₃ : Uuid := ⟨"33333333-3333-4333-8333-333333333333", by decide⟩

def uuid₄ : Uuid := ⟨"44444444-4444-4444-8444-444444444444", by decide⟩

def uuid₅ : Uuid := ⟨"55555555-5555-4555-8555-555555555555", by decide⟩

def lobby : Topic := ⟨"room:lobby"⟩

def lobbyReference : JoinReference := JoinReference.new uuid₀

/-- An iteration, followed by the publication of its status. -/
def iterate (input : Input) : List Label := [.select input, .publish]

def connectInput : Input := .stateCommand (.connect ⟨0, 5000000000, 0⟩) .connected

/-- Joins the lobby; `joinedTx` waits for the result. -/
def joinInput (deadline : Instant) (joinedTx : TxId) (uuid : Uuid) : Input :=
  .channelStateCommand (.join ⟨lobby, lobbyReference, .empty, deadline, joinedTx⟩) uuid (.ok ())

def leaveInput (leftTx : TxId) (uuid : Uuid) : Input :=
  .channelStateCommand (.leave ⟨lobby, lobbyReference, leftTx, leftTx⟩) uuid (.ok ())

def callInput (replyTx : TxId) (uuid : Uuid) : Input :=
  .channelSendCommand (.call ⟨lobby, lobbyReference, ⟨.user "shout", .empty⟩, replyTx⟩) uuid (.ok ())

/-- The server replies `ok` to the push with the reference drawn as `uuid`. -/
def okReply (uuid : Uuid) : SocketMessage :=
  .text (some (.array [.string lobbyReference.reference.text, .string (Reference.new uuid).text,
    .string lobby.name, .string "phx_reply",
    .object [("response", .object []), ("status", .string "ok")]]))

def replyInput (uuid : Uuid) : Input := .socketResult (.ok (okReply uuid)) (.ok ())

def disconnectInput (disconnectedTx : TxId) : Input :=
  .stateCommand (.disconnect disconnectedTx) .connected

def connectionClosed : Input := .socketResult (.error .connectionClosed) (.ok ())

/-! ## Join timeouts -/

/-- Where a join is taken only when no timer of its channel is outstanding, a join is answered with
a timeout by its own timer only, and not before its deadline. -/
theorem joinTimesOutAtOwnDeadline
    (h : Run (machine strategy) (fun w l => joinsAfterTimers w l = true) World.init ls w) :
    TimesOutAtOwnDeadline w := by
  intro e he tx htx
  obtain ⟨c, timer, join, hbefore, hfired, hmem, hdue, hjoin, rfl⟩ :=
    Entry.timedOut_cases (possible_of_run h e he) htx
  obtain ⟨hstarted, hdeadline⟩ :=
    (timersMatch_invariant.of_run h).2 e he c hbefore timer hmem join hjoin
  exact ⟨timer, hfired, join, by simpa [Entry.pendingJoin, hbefore] using hjoin, rfl, hstarted,
    hdeadline ▸ hdue⟩

/-- A join, its leave and a second join that is made after the first timer has fired: the second
join times out, at its own deadline. -/
def lateRejoin : List Label :=
  iterate connectInput ++ iterate (joinInput 5000000000 1 uuid₂) ++ iterate (replyInput uuid₂)
    ++ iterate (leaveInput 2 uuid₃) ++ [.elapse 5000000000] ++ iterate (.joinTimeout 0)
    ++ iterate (joinInput 10000000000 3 uuid₄) ++ [.elapse 5000000000] ++ iterate (.joinTimeout 0)

theorem joinTimesOutAtOwnDeadline_lateRejoin :
    ∃ w, Run (machine none) (fun w l => joinsAfterTimers w l = true) World.init lateRejoin w ∧
      w.trace.map Entry.timedOut = [[], [], [], [], [], [], [3]] ∧ TimesOutAtOwnDeadline w := by
  obtain ⟨w, hrun, htrace⟩ := exists_run (M := machine none)
    (show (Machine.exec _ (fun w l => joinsAfterTimers w l = true) World.init lateRejoin).map
      (fun w => w.trace.map Entry.timedOut) = some [[], [], [], [], [], [], [3]] by decide +kernel)
  exact ⟨w, hrun, htrace, joinTimesOutAtOwnDeadline hrun⟩

/-- The same channel joins again before the timer of its first join has fired. -/
def earlyRejoin : List Label :=
  iterate connectInput ++ iterate (joinInput 5000000000 1 uuid₂) ++ iterate (replyInput uuid₂)
    ++ iterate (leaveInput 2 uuid₃) ++ iterate (replyInput uuid₃) ++ [.elapse 4000000000]
    ++ iterate (joinInput 9000000000 3 uuid₄) ++ [.elapse 1000000000] ++ iterate (.joinTimeout 0)

/-- The first timer answers the second join four seconds before its deadline. -/
theorem earlyRejoin_not_timesOutAtOwnDeadline :
    ∃ w, Run (machine none) Free World.init earlyRejoin w ∧ ¬ TimesOutAtOwnDeadline w := by
  obtain ⟨w, hrun, hfails⟩ := exists_run (M := machine none)
    (show (Machine.exec _ Free World.init earlyRejoin).map
      (fun w => decide (TimesOutAtOwnDeadline w)) = some false by decide +kernel)
  exact ⟨w, hrun, of_decide_eq_false hfails⟩

/-! ## Replies -/

/-- Where a join is started only when no reply for its channel is outstanding, and nothing else is
written for a channel whose join is pending, every reply resolves the request it answers. -/
theorem repliesCorrelate
    (h : Run (machine strategy) (fun w l => serverEchoes w l && joinsAlone w l) World.init ls w) :
    RepliesCorrelate w where
  once := (referencesDrawn_of_run h).2
  reply := (correlated_of_run h).reply
  silent := fun e he hr => Entry.resolved_of_no_reply (possible_of_run h e he) hr

/-- A join, two calls that are answered in the other order, and a rejoin after an answered leave. -/
def answeredInTurn : List Label :=
  iterate connectInput ++ iterate (joinInput 5000000000 1 uuid₁) ++ iterate (replyInput uuid₁)
    ++ iterate (callInput 2 uuid₂) ++ iterate (callInput 3 uuid₃) ++ iterate (replyInput uuid₃)
    ++ iterate (replyInput uuid₂) ++ iterate (leaveInput 4 uuid₄) ++ iterate (replyInput uuid₄)
    ++ iterate (joinInput 5000000000 5 uuid₅) ++ iterate (replyInput uuid₅)

theorem repliesCorrelate_answeredInTurn :
    ∃ w, Run (machine none) (fun w l => serverEchoes w l && joinsAlone w l) World.init
      answeredInTurn w ∧
      w.trace.map Entry.resolved =
        [[], [], [.join 1], [], [], [.call 3], [.call 2], [], [], [], [.join 5]] ∧
      RepliesCorrelate w := by
  obtain ⟨w, hrun, hresolved⟩ := exists_run (M := machine none)
    (show (Machine.exec _ (fun w l => serverEchoes w l && joinsAlone w l) World.init
      answeredInTurn).map (fun w => w.trace.map Entry.resolved) =
        some [[], [], [.join 1], [], [], [.call 3], [.call 2], [], [], [], [.join 5]]
      by decide +kernel)
  exact ⟨w, hrun, hresolved, repliesCorrelate hrun⟩

/-- A channel joins again before the server has answered its leave. -/
def rejoinBeforeLeaveReply : List Label :=
  iterate connectInput ++ iterate (joinInput 5000000000 1 uuid₁) ++ iterate (replyInput uuid₁)
    ++ iterate (leaveInput 2 uuid₂) ++ iterate (joinInput 5000000000 3 uuid₃)
    ++ iterate (replyInput uuid₂)

/-- The reply to the leave finishes the second join. -/
theorem rejoinBeforeLeaveReply_not_correlate :
    ∃ w, Run (machine none) (fun w l => serverEchoes w l) World.init rejoinBeforeLeaveReply w ∧
      ¬ RepliesCorrelate w := by
  obtain ⟨w, hrun, hw⟩ := exists_run (M := machine none)
    (show (Machine.exec _ (fun w l => serverEchoes w l) World.init rejoinBeforeLeaveReply).map
      (fun w => (written w.trace,
        w.trace.getLast?.map (fun e => (e.reply?.map Reply.id, e.resolved)))) =
      some ([(⟨⟨lobby, lobbyReference⟩, .new uuid₁⟩, .join 1),
        (⟨⟨lobby, lobbyReference⟩, .new uuid₂⟩, .leave 2),
        (⟨⟨lobby, lobbyReference⟩, .new uuid₃⟩, .join 3)],
        some (some ⟨⟨lobby, lobbyReference⟩, .new uuid₂⟩, [.join 3])) by decide +kernel)
  obtain ⟨hwritten, hlast⟩ := Prod.mk.inj hw
  obtain ⟨e, he, hlast⟩ := Option.map_eq_some_iff.mp hlast
  obtain ⟨hreply, hresolved⟩ := Prod.mk.inj hlast
  obtain ⟨r, hr, hid⟩ := Option.map_eq_some_iff.mp hreply
  refine ⟨w, hrun, fun h => ?_⟩
  obtain ⟨origin, ho, hres⟩ := h.reply e (List.mem_of_getLast? he) r hr
  have hleave : (r.id, .leave 2) ∈ written w.trace := by simp [hwritten, hid]
  obtain rfl := (Prod.mk.inj (List.inj_on_of_nodup_map h.once ho hleave rfl)).2
  rw [hresolved] at hres
  cases hres

/-! ## Disconnects -/

/-- Where no `Disconnect` is processed while the listener waits to reconnect, an acknowledged
disconnect holds until a `Connect` is processed. -/
theorem disconnectSticks
    (h : Run (machine strategy) (fun w l => disconnectsOutsideReconnect w l = true) World.init
      ls w) : DisconnectSticks w := by
  have hidle : IdleSinceDisconnect w := by
    refine h.invariant ?_ (fun _ _ _ hi hok hstep => idleSinceDisconnect_step hi hok hstep)
    intro before after htrace hholds hconnect
    obtain ⟨rfl, rfl⟩ := List.append_eq_nil_iff.mp htrace.symm
    cases hholds
  intro before after htrace hholds hconnect
  obtain ⟨hi, hquiet⟩ := hidle before after htrace hholds hconnect
  exact ⟨hi.isConnected, hquiet⟩

/-- A disconnect of a connected socket, and a later one of the disconnected socket. -/
def disconnectTwice : List Label :=
  iterate connectInput ++ iterate (disconnectInput 1) ++ [.elapse 60000000000]
    ++ iterate (disconnectInput 2)

theorem disconnectSticks_twice :
    ∃ w, Run (machine none) (fun w l => disconnectsOutsideReconnect w l = true) World.init
      disconnectTwice w ∧ disconnectHolds w.trace = true ∧ DisconnectSticks w := by
  obtain ⟨w, hrun, hholds⟩ := exists_run (M := machine none)
    (show (Machine.exec _ (fun w l => disconnectsOutsideReconnect w l = true) World.init
      disconnectTwice).map (fun w => disconnectHolds w.trace) = some true by decide +kernel)
  exact ⟨w, hrun, hholds, disconnectSticks hrun⟩

/-- The connection is lost, the user disconnects, and the timer to reconnect goes off. -/
def disconnectWhileReconnecting : List Label :=
  iterate connectInput ++ iterate connectionClosed ++ iterate (disconnectInput 1)
    ++ iterate (.sleepElapsed .connected)

/-- The socket is connected again although the disconnect was acknowledged. -/
theorem disconnectWhileReconnecting_not_sticks :
    ∃ w, Run (machine none) Free World.init disconnectWhileReconnecting w ∧
      ¬ DisconnectSticks w := by
  obtain ⟨w, hrun, hw⟩ := exists_run (M := machine none)
    (show (Machine.exec _ Free World.init disconnectWhileReconnecting).map
      (fun w => (disconnectHolds (w.trace.take 3),
        decide (∀ e ∈ w.trace.drop 3, e.processesConnect = false), w.task.isConnected)) =
      some (true, true, true) by decide +kernel)
  simp only [Prod.mk.injEq, decide_eq_true_eq] at hw
  obtain ⟨hholds, hconnect, hconnected⟩ := hw
  refine ⟨w, hrun, fun hsticks => ?_⟩
  have h := (hsticks _ _ (List.take_append_drop 3 w.trace).symm hholds hconnect).1
  rw [hconnected] at h
  cases h

/-! ## Inputs of users -/

/-- In every state with a connection, what a user asks for is handled without a panic exactly when
its floats are finite and the names that go with binary data have at most 255 bytes. -/
theorem userInputsHandled {c : Connected} {x : Circumstances} {u : UserInput}
    (htask : w.task = .selecting (.connected c)) (huuid : x.uuid ∉ w.uuids) :
    Handles strategy w x u ↔ u.fits = true := handles_iff htask huuid

theorem connected_reached : ∃ w c, Run (machine none) Free World.init (iterate connectInput) w ∧
    w.task = .selecting (.connected c) ∧ w.uuids = [] :=
  ⟨_, _, .snoc (.snoc .nil trivial rfl) trivial rfl, rfl, rfl⟩

def circumstances : Circumstances := ⟨uuid₀, uuid₁, .ok (), 5000000000, 1, true⟩

/-- An event name of 256 bytes. -/
def longEvent : Event := .user ("".pushn 'a' 256)

/-- A long name goes with JSON. -/
theorem userInputsHandled_longEvent :
    ∃ w c, Run (machine none) Free World.init (iterate connectInput) w ∧
      w.task = .selecting (.connected c) ∧
      Handles none w circumstances
        (.call lobby longEvent (.jsonPayload (.array [.numb (.negInt 3), .str "shout"]))) := by
  obtain ⟨w, c, hrun, htask, huuids⟩ := connected_reached
  have hnew : circumstances.uuid ∉ w.uuids := by simp [huuids]
  exact ⟨w, c, hrun, htask, (userInputsHandled htask hnew).mpr (by decide)⟩

def notANumber : F64 := ⟨0x7FF8000000000000⟩

/-- A cast of binary data with the long name panics the listener, and one with a float that is not a
number panics its caller. -/
theorem longEvent_not_handled :
    ∃ w c, Run (machine none) Free World.init (iterate connectInput) w ∧
      w.task = .selecting (.connected c) ∧
      ¬ Handles none w circumstances (.cast lobby longEvent (.binary [])) ∧
      ¬ Handles none w circumstances
        (.cast lobby (.user "shout") (.jsonPayload (.numb (.float notANumber)))) := by
  obtain ⟨w, c, hrun, htask, huuids⟩ := connected_reached
  have hnew : circumstances.uuid ∉ w.uuids := by simp [huuids]
  have hlong : (UserInput.cast lobby longEvent (.binary [])).fits = false := by decide +kernel
  have hfloat : (UserInput.cast lobby (.user "shout")
      (.jsonPayload (.numb (.float notANumber)))).fits = false := by decide
  refine ⟨w, c, hrun, htask, ?_, ?_⟩
  · rw [handles_iff htask hnew, hlong]
    exact Bool.false_ne_true
  · rw [handles_iff htask hnew, hfloat]
    exact Bool.false_ne_true

/-! ## The maps of a connection -/

/-- On any connection, the maps of maps are changed as flat maps would be, and no inner map is ever
empty. -/
theorem mapsRefineFlat {c c' : Connected} {ops : List (Instant × MapOp)} {effects : List Effect}
    (h : Run (machine strategy) Free World.init ls w) (hc : w.task.connection = some c)
    (hops : c.applyAll ops = some (c', effects)) :
    RefinesFlat c (ops.map Prod.snd) c' effects := by
  have hmapped : c.WellMapped :=
    (wellMapped_invariant.of_run h).1 c (Task.connection_eq_some.mp hc)
  obtain ⟨hmapped', hmaps, hfound⟩ := hmapped.applyAll hops
  exact ⟨hmaps, hfound, ⟨hmapped'.joins, hmapped'.members, hmapped'.calls⟩, remove_absent c'⟩

/-- The lobby is joined, one call on it is answered, and it is left while another call is pending. -/
def lobbyOps : List (Instant × MapOp) :=
  let reply (uuid : Uuid) : Reply :=
    ⟨lobby, .phoenix .reply, .empty, lobbyReference, Reference.new uuid, .ok⟩
  let call (replyTx : TxId) : Call := ⟨lobby, lobbyReference, ⟨.user "shout", .empty⟩, replyTx⟩
  [(0, .startJoin ⟨lobby, lobbyReference, .empty, 5000000000, 1⟩ uuid₁ (.ok ())),
    (1, .handleReply (reply uuid₁) 7), (2, .call (call 2) uuid₂ (.ok ())),
    (3, .call (call 3) uuid₃ (.ok ())), (4, .handleReply (reply uuid₂) 8),
    (5, .leave ⟨lobby, lobbyReference, 4, 4⟩ uuid₄ (.ok ()))]

theorem mapsRefineFlat_lobbyOps :
    ∃ w c c' effects, Run (machine none) Free World.init (iterate connectInput) w ∧
      w.task.connection = some c ∧ c.applyAll lobbyOps = some (c', effects) ∧
      effects.filterMap Effect.found? = [1, 2, 7] ∧
      RefinesFlat c (lobbyOps.map Prod.snd) c' effects := by
  have hrun : Run (machine none) Free World.init (iterate connectInput) _ :=
    .snoc (.snoc .nil trivial rfl) trivial rfl
  have hfound : (((Connected.new 0 5000000000).applyAll lobbyOps).map
      fun x => x.2.filterMap Effect.found?) = some [1, 2, 7] := by decide +kernel
  obtain ⟨⟨c', effects⟩, hops, heffects⟩ := Option.map_eq_some_iff.mp hfound
  exact ⟨_, _, c', effects, hrun, rfl, hops, heffects, mapsRefineFlat hrun rfl hops⟩

/-! ## Heartbeats -/

theorem heartbeatDiscipline (h : Run (machine strategy) Free World.init ls w) :
    HeartbeatDiscipline strategy w := (heartbeatsMatch_of_run h).discipline

def heartbeatInput (uuid : Uuid) : Input := .heartbeat uuid (.ok ())

/-- The server replies to the heartbeat with the reference drawn as `uuid`. -/
def heartbeatReply (uuid : Uuid) : Input :=
  .socketResult (.ok (.text (some (.array [.null, .string (Reference.heartbeat uuid).text,
    .string "phoenix", .string "phx_reply",
    .object [("response", .object []), ("status", .string "ok")]])))) (.ok ())

/-- Two heartbeats, of which the first one is answered. -/
def heartbeats : List Label :=
  iterate connectInput ++ [.elapse heartbeatPeriod] ++ iterate (heartbeatInput uuid₁)
    ++ iterate (heartbeatReply uuid₂) ++ iterate (heartbeatReply uuid₁)
    ++ [.elapse heartbeatPeriod] ++ iterate (heartbeatInput uuid₃)

theorem heartbeatDiscipline_heartbeats :
    ∃ w, Run (machine none) Free World.init heartbeats w ∧
      w.trace.map Entry.heartbeat? = [none, some (.heartbeat uuid₁), none, none,
        some (.heartbeat uuid₃)] ∧
      (w.task.connection.bind Connected.sentHeartbeatReference) = some (.heartbeat uuid₃) ∧
      HeartbeatDiscipline none w := by
  obtain ⟨w, hrun, hw⟩ := exists_run (M := machine none)
    (show (Machine.exec _ Free World.init heartbeats).map
      (fun w => (w.trace.map Entry.heartbeat?,
        w.task.connection.bind Connected.sentHeartbeatReference)) =
      some ([none, some (.heartbeat uuid₁), none, none, some (.heartbeat uuid₃)],
        some (.heartbeat uuid₃)) by decide +kernel)
  exact ⟨w, hrun, congrArg Prod.fst hw, congrArg Prod.snd hw, heartbeatDiscipline hrun⟩

/-! ## Losing the connection -/

theorem settlesWhenLost (c : Connected) (d : Disconnected) : SettlesWhenLost c d where
  settles := sendDisconnected_settlesOnce c d
  emptied := ⟨rfl, rfl, rfl⟩
  anyOrder h := ⟨h.settles, h.settles.perm (sendDisconnected_settlesOnce c d)⟩
  called h := h.select
  only := select_lost

/-- A connection with two pending calls, made in the given order. -/
def twoCalls (first second : Reference) : Connected :=
  let calls := NestedMap₃.put ∅ lobby lobbyReference first 1
  { Connected.new 0 5000000000 with
    replyTxByReferenceByJoinReferenceByTopic := calls.put lobby lobbyReference second 1 }

theorem samePending_twoCalls (first second : Reference) :
    SamePending (twoCalls first second) (twoCalls second first) := by
  refine ⟨rfl, ?_⟩
  funext key reference
  simp only [Connected.pendingCall, twoCalls, NestedMap₃.find_put, NestedMap₃.find_empty]
  grind

/-- The calls are answered once each, in either order, when a send fails. -/
theorem settlesWhenLost_twoCalls :
    let c := twoCalls (Reference.new uuid₁) (Reference.new uuid₂)
    let c' := twoCalls (Reference.new uuid₂) (Reference.new uuid₁)
    SamePending c c' ∧ c.callEntries ≠ c'.callEntries ∧
      SettlesOnce c .reconnect (sendDisconnected c' .reconnect).2 ∧
      LosesConnection 30000000000 c (.heartbeat uuid₃ (.error .io)) .reconnect ∧
      SettlesWhenLost c .reconnect := by
  have hsame := samePending_twoCalls (Reference.new uuid₁) (Reference.new uuid₂)
  have hlost := settlesWhenLost (twoCalls (Reference.new uuid₁) (Reference.new uuid₂)) .reconnect
  exact ⟨hsame, by decide +kernel, (hlost.anyOrder hsame).1,
    .heartbeat (Nat.le_of_eq rfl) rfl, hlost⟩

/-! ## Promises -/

/-- As long as the listener runs, and when it has ended without an error, the senders that came with
connects, disconnects, channel spawns, leaves and calls are those that it sent into and those of the
calls that wait for a reply: none is dropped, and none is sent into twice. -/
theorem promisesKept (h : Run (machine strategy) Free World.init ls w)
    (hw : w.task.isRunning = true ∨ w.task = .exited (.ok ())) :
    w.promised.Perm (w.kept ++ w.pending) := promisesKept_of_run h hw

/-- Two calls, of which the second one is answered, and a leave. -/
def oneCallWaits : List Label :=
  iterate connectInput ++ iterate (joinInput 5000000000 1 uuid₁) ++ iterate (replyInput uuid₁)
    ++ iterate (callInput 2 uuid₂) ++ iterate (callInput 3 uuid₃) ++ iterate (replyInput uuid₃)
    ++ iterate (leaveInput 4 uuid₄)

theorem promisesKept_oneCallWaits :
    ∃ w, Run (machine none) Free World.init oneCallWaits w ∧
      w.promised = [.connected 0, .reply 2, .reply 3, .left 4] ∧
      w.kept = [.connected 0, .reply 3, .left 4] ∧ w.pending = [.reply 2] ∧
      w.promised.Perm (w.kept ++ w.pending) := by
  obtain ⟨w, hrun, hw⟩ := exists_run (M := machine none)
    (show (Machine.exec _ Free World.init oneCallWaits).map
      (fun w => (w.promised, w.kept, w.pending, w.task.isRunning)) =
      some ([.connected 0, .reply 2, .reply 3, .left 4], [.connected 0, .reply 3, .left 4],
        [.reply 2], true) by decide +kernel)
  simp only [Prod.mk.injEq] at hw
  obtain ⟨hpromised, hkept, hpending, hruns⟩ := hw
  exact ⟨w, hrun, hpromised, hkept, hpending, promisesKept hrun (.inl hruns)⟩

end PhoenixChannels.Socket
