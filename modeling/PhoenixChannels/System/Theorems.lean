import PhoenixChannels.Socket.Theorems
import PhoenixChannels.Socket.Lemmas.Memberships
import PhoenixChannels.System.Lemmas.CastOrder
import PhoenixChannels.System.Lemmas.Deadlock
import PhoenixChannels.System.Lemmas.Events
import PhoenixChannels.System.Lemmas.Isolation
import PhoenixChannels.System.Lemmas.Joins
import PhoenixChannels.System.Lemmas.Results
import PhoenixChannels.System.Lemmas.Shutdowns
import PhoenixChannels.System.Lemmas.Statuses
import PhoenixChannels.System.Lemmas.Terminations

/-!
# Theorems on the client

What holds of every run of the whole client, its listeners and the calls of users, whose steps meet
a condition; and runs that do not meet it.
-/

namespace PhoenixChannels.System

open Machine History
open Socket (uuid₀ uuid₁ uuid₂ uuid₃ uuid₄ uuid₅ lobby lobbyReference okReply)

variable {strategy : Option (Nat → Duration)} {ls : List Label} {s : System}

/-! ## Labels of the sample runs -/

/-- An iteration of the socket listener with `effects` effects. -/
def handle (event : SocketEvent) (effects : Nat) : List Label :=
  [.select event] ++ List.replicate effects .deliver ++ [.publish]

/-- The lobby's listener polls `count` times. -/
def pollLobby (count : Nat) : List Label := List.replicate count (.poll lobbyReference)

/-- A command of the lobby's listener goes to the socket. -/
def forwardLobby : List Label := [.forward lobbyReference, .publishChannel lobbyReference]

/-- A user calls a function, as call number `i`, which sends its command. -/
def call (i : Nat) (request : Request) : List Label := [.begin request, .advance i]

def connectSocket : List Label :=
  call 0 (.connect 5000000000) ++ handle (.stateCommand .connected) 2 ++ [.advance 0]

def spawnLobby : List Label :=
  call 1 (.channel lobby none) ++ handle (.channelSpawn uuid₀) 1 ++ [.advance 1]

/-- The lobby's listener sends its join to the socket. -/
def sendJoin : List Label :=
  call 2 (.channelJoin lobbyReference 5000000000) ++ pollLobby 3 ++ forwardLobby

def joinLobby : List Label :=
  sendJoin ++ handle (.channelStateCommand uuid₁ (.ok ())) 1
    ++ handle (.socketResult (.ok (okReply uuid₁)) (.ok ())) 1
    ++ pollLobby 2 ++ [.publishChannel lobbyReference, .advance 2]

/-- The socket is connected, and the lobby's listener is joined. -/
def joinedLobby : List Label := connectSocket ++ spawnLobby ++ joinLobby

def shout : EventPayload := ⟨.user "shout", .empty⟩

def loseConnection : List Label :=
  handle (.socketResult (.error .connectionClosed) (.ok ())) 1

def reconnectSocket : List Label := handle (.sleepElapsed .connected) 1

/-! ## Connectivity -/

/-- Where no joined channel reads that the socket is connected while it is, and no channel that waits
for the socket lags behind, no channel waits for a connect that it cannot hear of. -/
theorem agreesOnConnectivity
    (h : Run (machine strategy) (fun s l => readsInStep s l = true) init ls s) :
    AgreesOnConnectivity s := by
  intro hconnected c w hw hwaits
  have hread := canRead_of_run h (isRunning_of_isConnected hconnected) hw hwaits
  exact ⟨hread.lt hconnected, hread.enabled⟩

/-- The lobby's listener hears of the loss before the socket reconnects. -/
def promptReconnect : List Label :=
  joinedLobby ++ loseConnection ++ pollLobby 2 ++ [.publishChannel lobbyReference]
    ++ reconnectSocket

theorem agreesOnConnectivity_promptReconnect :
    ∃ s, Run (machine none) (fun s l => readsInStep s l = true) init promptReconnect s ∧
      (s.socket.task.isConnected, (s.channels.lookup lobbyReference).map
        (fun w => w.task.waitsForSocket)) = (true, some true) ∧ AgreesOnConnectivity s := by
  obtain ⟨s, hrun, hs⟩ := exists_run (M := machine none)
    (show (Machine.exec _ (fun s l => readsInStep s l = true) init promptReconnect).map
      (fun s => (s.socket.task.isConnected, (s.channels.lookup lobbyReference).map
        (fun w => w.task.waitsForSocket))) = some (true, some true) by decide +kernel)
  exact ⟨s, hrun, hs, agreesOnConnectivity hrun⟩

/-- The socket loses its connection and reconnects before the lobby's listener polls again. The news
of the loss is overwritten; a cast brings the listener to its next `select!`. -/
def missedReconnect : List Label :=
  joinedLobby ++ loseConnection ++ reconnectSocket
    ++ call 3 (.channelCast lobbyReference shout) ++ pollLobby 5 ++ forwardLobby ++ pollLobby 2

/-- The listener waits for a connect, and nothing is left to read. -/
theorem missedReconnect_not_agrees :
    ∃ s, Run (machine none) Free init missedReconnect s ∧ ¬ AgreesOnConnectivity s := by
  obtain ⟨s, hrun, hs⟩ := exists_run (M := machine none)
    (show (Machine.exec _ Free init missedReconnect).map
      (fun s => (s.socket.task.isConnected, (s.channels.lookup lobbyReference).map
        (fun w => (w.task.waitsForSocket, w.seen)),
        (Socket.connectivities s.socket.effects).length)) =
      some (true, some (true, 3), 3) by decide +kernel)
  simp only [Prod.mk.injEq, Option.map_eq_some_iff] at hs
  obtain ⟨hconnected, ⟨w, hw, hwaits, hseen⟩, hlength⟩ := hs
  refine ⟨s, hrun, fun hagrees => ?_⟩
  have hlt := (hagrees hconnected _ w hw hwaits).1
  omega

/-! ## Calls and casts of members -/

/-- The socket listener takes a `Call` or a `Cast` only while it holds the senders of the channel. -/
def takesFromMembers (s : System) : Label → Bool
  | .select event =>
      match s.receive event with
      | some (input, _) => Socket.sendsAsMember s.socket (.select input)
      | none => true
  | _ => true

/-- Where it does so, a call or a cast is written only after the join of its channel was finished on
the same connection, and before a leave of the channel. -/
theorem pushesFromMembers
    (h : Run (machine strategy) (fun s l => takesFromMembers s l = true) init ls s) :
    Socket.PushesFromMembers s.socket.trace := by
  have hother : ∀ (w : Socket.World) (l : Socket.Label), (∀ input, l ≠ .select input) →
      Socket.sendsAsMember w l = true := by
    intro w l hl
    cases l with
    | select input => exact absurd rfl (hl input)
    | _ => rfl
  obtain ⟨ks, hks⟩ := socket_run_of (fun w l => Socket.sendsAsMember w l = true) hother
    (fun s event input taken hok hreceive _ => by
      simpa [takesFromMembers, hreceive.eq] using hok) h
  exact Socket.pushesFromMembers_of_run hks

/-- The joined lobby casts, and its listener hands the cast to the socket. -/
def queueCast : List Label :=
  joinedLobby ++ call 3 (.channelCast lobbyReference shout) ++ pollLobby 5 ++ forwardLobby

def takeCast : List Label := handle (.channelSendCommand uuid₂ (.ok ())) 1

theorem pushesFromMembers_castInTime :
    ∃ s, Run (machine none) (fun s l => takesFromMembers s l = true) init (queueCast ++ takeCast) s ∧
      s.socket.trace.map Socket.Entry.senders = [[], [], [], [], [⟨lobby, lobbyReference⟩]] ∧
      Socket.PushesFromMembers s.socket.trace := by
  obtain ⟨s, hrun, hs⟩ := exists_run (M := machine none)
    (show (Machine.exec _ (fun s l => takesFromMembers s l = true) init
      (queueCast ++ takeCast)).map (fun s => s.socket.trace.map Socket.Entry.senders) =
        some [[], [], [], [], [⟨lobby, lobbyReference⟩]] by decide +kernel)
  exact ⟨s, hrun, hs, pushesFromMembers hrun⟩

/-- The connection is lost and made again while the cast is in the queue of the socket. -/
def castAcrossReconnect : List Label :=
  queueCast ++ loseConnection ++ reconnectSocket ++ takeCast

/-- The cast is written on a connection on which the lobby has not joined. -/
theorem castAcrossReconnect_not_fromMember :
    ∃ s, Run (machine none) Free init castAcrossReconnect s ∧
      ¬ Socket.PushesFromMembers s.socket.trace := by
  obtain ⟨s, hrun, hs⟩ := exists_run (M := machine none)
    (show (Machine.exec _ Free init castAcrossReconnect).map
      (fun s => (Socket.members (s.socket.trace.take 6),
        (s.socket.trace.drop 6).map Socket.Entry.senders)) =
      some ([], [[⟨lobby, lobbyReference⟩]]) by decide +kernel)
  obtain ⟨hmembers, hlast⟩ := Prod.mk.inj hs
  obtain ⟨e, hdrop, hsenders⟩ := List.map_eq_singleton_iff.mp hlast
  refine ⟨s, hrun, fun hpushes => ?_⟩
  have hsplit : s.socket.trace = s.socket.trace.take 6 ++ e :: [] := by
    rw [← hdrop, List.take_append_drop]
  have hmem := hpushes _ e [] hsplit ⟨lobby, lobbyReference⟩ (by simp [hsenders])
  rw [hmembers] at hmem
  cases hmem

/-! ## A cast and later leaves -/

/-- Where neither listener takes a later leave while the cast is in its other queue, and the socket
stays connected, the cast is written before each later leave of its channel. -/
theorem castBeforeLeaves {i : Nat} {c : JoinReference} {s₁ s₂ s₃ : System} {ls₁ ls₂ : List Label}
    (h₁ : Run (machine strategy) Free init ls₁ s₁) (hcast : CastReturns strategy s₁ i c s₂)
    (h₂ : Run (machine strategy) (fun s l => leavesAfter c s₁.fresh s l = true) s₂ ls₂ s₃)
    (hkept : ConnectionKept s₂ s₃) : CastBeforeLeaves s₃ c s₁.fresh := by
  have hahead := castAhead_of_run h₁ hcast h₂ hkept
  refine ⟨hahead.ahead, fun hlt hl hw command hmem hticket => ?_⟩
  cases command with
  | cast payload ticket =>
      cases hticket
      exact (hahead.taken hlt hl).2 _ hw (.queued hmem)
  | call => cases hticket

/-- The caller of the joined lobby is about to cast. -/
def beginCast : List Label := joinedLobby ++ [.begin (.channelCast lobbyReference shout)]

/-- The caller leaves after the cast, when the lobby's listener has already polled the branch of
the leave. -/
def leaveInTurn : List Label :=
  pollLobby 4 ++ call 4 (.channelLeave lobbyReference) ++ pollLobby 1 ++ forwardLobby
    ++ pollLobby 4 ++ forwardLobby ++ takeCast ++ handle (.channelStateCommand uuid₃ (.ok ())) 3

/-- The caller leaves after the cast, before the lobby's listener polls. -/
def leaveAtOnce : List Label :=
  call 4 (.channelLeave lobbyReference) ++ pollLobby 4 ++ forwardLobby
    ++ handle (.channelStateCommand uuid₂ (.ok ())) 3

/-- The cast of the lobby returns, and the run goes on with `ls`. -/
def afterCast (ok : TxId → System → Label → Bool) (ls : List Label) (s : System) :
    Option (System × System) :=
  ((machine none).step s (.advance 3)).bind fun s₂ =>
    ((machine none).exec (fun s' l => ok s.fresh s' l = true) s₂ ls).map fun s₃ => (s₂, s₃)

/-- The cast returned, and the socket stayed connected. -/
def castKept (s₁ s₂ s₃ : System) : Bool :=
  s₁.operations[3]?.any (fun op => isCasting op lobbyReference)
    && s₂.operations[3]?.any hasReturnedOk && s₃.socket.task.isConnected
    && Socket.connectivities s₃.socket.effects = Socket.connectivities s₂.socket.effects

theorem runs_of_afterCast {ok : TxId → System → Label → Bool} {s₁ s₂ s₃ : System}
    (h : afterCast ok ls s₁ = some (s₂, s₃)) (hkept : castKept s₁ s₂ s₃ = true) :
    CastReturns none s₁ 3 lobbyReference s₂ ∧
      Run (machine none) (fun s l => ok s₁.fresh s l = true) s₂ ls s₃ ∧ ConnectionKept s₂ s₃ := by
  obtain ⟨s₂', hstep, h⟩ := Option.bind_eq_some_iff.mp h
  obtain ⟨s₃', hrun, heq⟩ := Option.map_eq_some_iff.mp h
  cases heq
  simp only [castKept, Bool.and_eq_true, decide_eq_true_eq] at hkept
  obtain ⟨⟨⟨hsending, hreturned⟩, hconnected⟩, hunchanged⟩ := hkept
  exact ⟨⟨hsending, hstep, hreturned⟩, .of_exec hrun, hconnected, hunchanged⟩

theorem castBeforeLeaves_leaveInTurn :
    ∃ s₁ s₂ s₃, Run (machine none) Free init beginCast s₁ ∧
      CastReturns none s₁ 3 lobbyReference s₂ ∧
      Run (machine none) (fun s l => leavesAfter lobbyReference s₁.fresh s l = true) s₂ leaveInTurn
        s₃ ∧ ConnectionKept s₂ s₃ ∧
      (Socket.written s₃.socket.trace).map Prod.snd = [.join 3, .cast 4, .leave 5] ∧
      CastBeforeLeaves s₃ lobbyReference s₁.fresh := by
  obtain ⟨s₁, h₁, hs⟩ := exists_run (M := machine none)
    (show (Machine.exec _ Free init beginCast).map (fun s₁ =>
      (afterCast (leavesAfter lobbyReference) leaveInTurn s₁).map (fun s =>
        (castKept s₁ s.1 s.2, (Socket.written s.2.socket.trace).map Prod.snd))) =
      some (some (true, [.join 3, .cast 4, .leave 5])) by decide +kernel)
  obtain ⟨⟨s₂, s₃⟩, hafter, hfacts⟩ := Option.map_eq_some_iff.mp hs
  obtain ⟨hkept, hwritten⟩ := Prod.mk.inj hfacts
  obtain ⟨hcast, h₂, hkept⟩ := runs_of_afterCast hafter hkept
  exact ⟨s₁, s₂, s₃, h₁, hcast, h₂, hkept, hwritten, castBeforeLeaves h₁ hcast h₂ hkept⟩

/-- The leave of the joined lobby is written, and the cast is left behind. -/
theorem leaveAtOnce_not_after :
    ∃ s₁ s₂ s₃, Run (machine none) Free init beginCast s₁ ∧
      (s₁.channels.lookup lobbyReference).map Channel.World.status = some .joined ∧
      CastReturns none s₁ 3 lobbyReference s₂ ∧ Run (machine none) Free s₂ leaveAtOnce s₃ ∧
      ConnectionKept s₂ s₃ ∧
      (Socket.written s₃.socket.trace).map Prod.snd = [.join 3, .leave 5] ∧
      ¬ CastBeforeLeaves s₃ lobbyReference s₁.fresh := by
  obtain ⟨s₁, h₁, hs⟩ := exists_run (M := machine none)
    (show (Machine.exec _ Free init beginCast).map (fun s₁ =>
      (decide ((s₁.channels.lookup lobbyReference).map Channel.World.status = some .joined ∧
          s₁.fresh = 4),
        (afterCast (fun _ _ _ => true) leaveAtOnce s₁).map (fun s => (castKept s₁ s.1 s.2,
          (Socket.written s.2.socket.trace).map Prod.snd,
          (s.2.channels.lookup lobbyReference).any (fun w =>
            5 ∈ w.leavesTaken ∧ some 4 ∈ w.sendCommandRx.map Channel.SendCommand.cast?))))) =
      some (true, some (true, [.join 3, .leave 5], true)) by decide +kernel)
  simp only [Prod.mk.injEq, decide_eq_true_eq, Prod.exists, Option.map_eq_some_iff,
    Option.any_eq_true, List.mem_map] at hs
  obtain ⟨⟨hjoined, hfresh⟩, s₂, s₃, hafter, hkept, hwritten, w, hw, htaken, command, hmem,
    hticket⟩ := hs
  obtain ⟨hcast, h₂, hkept⟩ := runs_of_afterCast hafter hkept
  refine ⟨s₁, s₂, s₃, h₁, Option.map_eq_some_iff.mpr hjoined, hcast, h₂.free, hkept, hwritten,
    fun h => ?_⟩
  rw [hfresh] at h
  exact h.notLeftBehind (l := 5) (by decide) (.listener hw htaken) hw command hmem hticket

/-! ## Waiting on each other -/

/-- Where no listener starts to wait on one that waits on it, no two listeners wait on each other. -/
theorem noCyclicWait
    (h : Run (machine strategy) (fun s l => waitsInTurn s l = true) init ls s) : NoCyclicWait s :=
  noCyclicWait_of_run h

/-- A push of the server for the lobby. -/
def notice : SocketMessage :=
  .text (some (.array [.string lobbyReference.reference.text, .null, .string lobby.name,
    .string "notice", .object []]))

def takeNotice : List Label := [.select (.socketResult (.ok notice) (.ok ()))]

/-- Ten pushes fill the queue of the joined lobby, and the socket listener waits with one more. -/
def fillPushes : List Label :=
  joinedLobby ++ (List.replicate 10 (takeNotice ++ [.pushed, .publish])).flatten ++ takeNotice

theorem noCyclicWait_fillPushes :
    ∃ s, Run (machine none) (fun s l => waitsInTurn s l = true) init fillPushes s ∧
      (s.channels.lookup lobbyReference).map s.waitsOnPush = some true ∧ NoCyclicWait s := by
  obtain ⟨s, hrun, hs⟩ := exists_run (M := machine none)
    (show (Machine.exec _ (fun s l => waitsInTurn s l = true) init fillPushes).map
      (fun s => (s.channels.lookup lobbyReference).map s.waitsOnPush) = some (some true)
      by decide +kernel)
  exact ⟨s, hrun, hs, noCyclicWait hrun⟩

/-- A user casts, as call number `i`, and the lobby's listener takes the cast. -/
def takeCastOf (i : Nat) : List Label := call i (.channelCast lobbyReference shout) ++ pollLobby 5

/-- The lobby's listener serves fifty casts before it reads a push, and takes one more. -/
def fillCasts : List Label :=
  (List.range 50).flatMap (fun i => takeCastOf (i + 3) ++ forwardLobby) ++ takeCastOf 53

/-- The socket listener and the lobby's listener wait on each other. -/
theorem fillCasts_cyclicWait :
    ∃ s, Run (machine none) Free init (fillPushes ++ fillCasts) s ∧ ¬ NoCyclicWait s := by
  obtain ⟨s, hrun, hs⟩ := exists_run (M := machine none)
    (show (Machine.exec _ Free init (fillPushes ++ fillCasts)).map
      (fun s => (s.channels.lookup lobbyReference).map
        (fun w => (s.waitsOnPush w, s.waitsOnSocket w))) = some (some (true, true))
      by decide +kernel)
  obtain ⟨w, hw, hwaits⟩ := Option.map_eq_some_iff.mp hs
  obtain ⟨hpush, hsocket⟩ := Prod.mk.inj hwaits
  refine ⟨s, hrun, fun h => ?_⟩
  rw [h _ w hw hpush] at hsocket
  cases hsocket

/-! ## Joins -/

/-- Where the write of a join fails only when no channel waits for that join, each join that is
taken gets one result, and no channel listener ends. -/
theorem joinsAnswered
    (h : Run (machine strategy) (fun s l => joinsWritten s l = true) init ls s)
    (hrunning : s.socket.task.isRunning = true) : JoinsAnswered s where
  once := (joinsTracked_of_run h).once
  answered := fun hw hawaits hjoin => answered_or_pending h hrunning hw hawaits hjoin
  notDropped := fun hw hawaits => joined_ne_closed h hrunning hw hawaits
  notEnded := fun hw => not_ended_of_run h hrunning hw

/-- The connection is lost after the join was written. -/
def lossAfterJoin : List Label :=
  connectSocket ++ spawnLobby ++ sendJoin ++ handle (.channelStateCommand uuid₁ (.ok ())) 1
    ++ handle (.socketResult (.error .connectionClosed) (.ok ())) 2 ++ pollLobby 2

theorem joinsAnswered_lossAfterJoin :
    ∃ s, Run (machine none) (fun s l => joinsWritten s l = true) init lossAfterJoin s ∧
      Socket.answered s.socket.effects = [3] ∧ JoinsAnswered s := by
  obtain ⟨s, hrun, hs⟩ := exists_run (M := machine none)
    (show (Machine.exec _ (fun s l => joinsWritten s l = true) init lossAfterJoin).map
      (fun s => (Socket.answered s.socket.effects, s.socket.task.isRunning)) =
        some ([3], true) by decide +kernel)
  obtain ⟨hanswered, hrunning⟩ := Prod.mk.inj hs
  exact ⟨s, hrun, hanswered, joinsAnswered hrun hrunning⟩

/-- The web socket fails while the join is written. -/
def lossOnJoin : List Label :=
  connectSocket ++ spawnLobby ++ sendJoin ++ handle (.channelStateCommand uuid₁ (.error .io)) 1
    ++ pollLobby 2

/-- The join has no result, and the lobby's listener has ended while the socket listener runs. -/
theorem lossOnJoin_not_answered :
    ∃ s, Run (machine none) Free init lossOnJoin s ∧ s.socket.task.isRunning = true ∧
      ¬ JoinsAnswered s := by
  obtain ⟨s, hrun, hs⟩ := exists_run (M := machine none)
    (show (Machine.exec _ Free init lossOnJoin).map
      (fun s => (s.socket.task.isRunning,
        (s.channels.lookup lobbyReference).map (fun w => w.task.error?))) =
        some (true, some (some .socketShutdown)) by decide +kernel)
  obtain ⟨hrunning, hlobby⟩ := Prod.mk.inj hs
  obtain ⟨w, hw, herror⟩ := Option.map_eq_some_iff.mp hlobby
  refine ⟨s, hrun, hrunning, fun h => ?_⟩
  rw [h.notEnded hw] at herror
  cases herror

/-! ## Calls on a listener that has ended -/

/-- Where a join handle is taken only of a listener that has ended with an error, unless `shutdown`
takes it, each call that is cut off returns an error. -/
theorem callsReturnErrors {s₁ s₂ : System} {ls₁ ls₂ : List Label}
    (h₁ : Run (machine strategy) (fun s l => takesErrors s l = true) init ls₁ s₁)
    (h₂ : Run (machine strategy) (fun s l => takesErrors s l = true) s₁ ls₂ s₂) :
    ReturnsErrors s₁ ls₂ s₂ := returnsErrors_of_run h₁ h₂

/-- The socket is shut down, and then the lobby's listener ends with `Ok(())`. -/
def shutDownSocket : List Label :=
  joinedLobby ++ call 3 .shutdown ++ handle (.stateCommand .connected) 2
    ++ [.select .stop, .advance 3, .advance 3] ++ pollLobby 2 ++ [.publishChannel lobbyReference]
    ++ pollLobby 1

/-- The lobby is shut down as well, which takes the join handle of its listener. -/
def shutDownLobby : List Label :=
  shutDownSocket ++ call 4 (.channelShutdown lobbyReference) ++ [.advance 4, .advance 4]

def castLate : Label := .begin (.channelCast lobbyReference shout)

/-- The call `i` is about to send its command to a listener that has ended. -/
def isLate (s : System) (i : Nat) : Bool :=
  match s.operations[i]? with
  | some ⟨request, _, .sending⟩ => !request.isShutdown && s.listenerEnded request.channel?
  | _ => false

theorem cutOff_of_isLate {i : Nat} (h : s.isLate i = true) :
    ∃ op, s.operations[i]? = some op ∧ op.request.isShutdown = false ∧ CutOff s op := by
  unfold isLate at h
  split at h
  · rename_i request createdAt hop
    simp only [Bool.and_eq_true, Bool.not_eq_true'] at h
    exact ⟨_, hop, h.1, .ended rfl h.2⟩
  · cases h

theorem callsReturnErrors_shutDownLobby :
    ∃ s₁ s₂, Run (machine none) (fun s l => takesErrors s l = true) init
        (shutDownLobby ++ [castLate]) s₁ ∧
      (∃ op, s₁.operations[5]? = some op ∧ op.request.isShutdown = false ∧ CutOff s₁ op) ∧
      Run (machine none) (fun s l => takesErrors s l = true) s₁ [.advance 5, .advance 5] s₂ ∧
      (s₂.operations[5]?.map fun op => op.phase.isError) = some true ∧
      ReturnsErrors s₁ [.advance 5, .advance 5] s₂ := by
  obtain ⟨s₁, h₁, hs⟩ := exists_run (M := machine none)
    (show (Machine.exec _ (fun s l => takesErrors s l = true) init
      (shutDownLobby ++ [castLate])).map (fun s₁ => (s₁.isLate 5,
        ((machine none).exec (fun s l => takesErrors s l = true) s₁
          [.advance 5, .advance 5]).map (fun s₂ =>
            s₂.operations[5]?.map (fun op => op.phase.isError)))) =
      some (true, some (some true)) by decide +kernel)
  obtain ⟨hlate, hs⟩ := Prod.mk.inj hs
  obtain ⟨s₂, h₂, herror⟩ := exists_run hs
  exact ⟨s₁, s₂, h₁, cutOff_of_isLate hlate, h₂, herror, callsReturnErrors h₁ h₂⟩

/-- A call has panicked over the `Ok(())` of its listener. -/
def unwrapsOk (op : Operation) : Bool :=
  match op.phase with
  | .panicked .unwrapErr => true
  | _ => false

/-- The cast of the lobby panics. -/
theorem castAfterShutdown_not_returnsErrors :
    ∃ s₁ s₂, Run (machine none) Free init (shutDownSocket ++ [castLate]) s₁ ∧
      (∃ op, s₁.operations[4]? = some op ∧ op.request.isShutdown = false ∧ CutOff s₁ op) ∧
      Run (machine none) Free s₁ [.advance 4, .advance 4, .advance 4] s₂ ∧
      ¬ ReturnsErrors s₁ [.advance 4, .advance 4, .advance 4] s₂ := by
  obtain ⟨s₁, h₁, hs⟩ := exists_run (M := machine none)
    (show (Machine.exec _ Free init (shutDownSocket ++ [castLate])).map (fun s₁ => (s₁.isLate 4,
        ((machine none).exec Free s₁ [.advance 4, .advance 4, .advance 4]).map (fun s₂ =>
          s₂.operations.any unwrapsOk))) =
      some (true, some true) by decide +kernel)
  obtain ⟨hlate, hs⟩ := Prod.mk.inj hs
  obtain ⟨s₂, h₂, hunwraps⟩ := exists_run hs
  refine ⟨s₁, s₂, h₁, cutOff_of_isLate hlate, h₂, fun h => ?_⟩
  obtain ⟨op, hop, hunwraps⟩ := List.any_eq_true.mp hunwraps
  unfold unwrapsOk at hunwraps
  split at hunwraps
  · cases (h.calls hop ‹_›).2
  · cases hunwraps

/-! ## The end of the socket listener -/

/-- Where the socket is shut down while it is connected, meets no error that ends it, and stops with
nothing in its queues, and no connectivity change overtakes a channel that waits, the end of the
socket listener settles what waits for it. -/
theorem terminationSettles
    (h : Run (machine strategy) (fun s l => endsSettled s l = true) init ls s) :
    TerminationSettles strategy ls s where
  answered := h.forall_steps fun _ _ _ _ hok _ hs hends _ htx =>
    (step_cases hs).settles hok hends htx
  broadcast _ hexited := (broadcast_of_run h hexited).2
  channels _ hexited _ _ hw := not_onlyShutdownMoves_of_run h hexited hw

/-- The socket is shut down while the join of the lobby is pending. -/
def shutDownConnected : List Label :=
  connectSocket ++ spawnLobby ++ sendJoin ++ handle (.channelStateCommand uuid₁ (.ok ())) 1
    ++ call 3 .shutdown ++ handle (.stateCommand .connected) 3 ++ [.select .stop]

theorem terminationSettles_shutDownConnected :
    ∃ s, Run (machine none) (fun s l => endsSettled s l = true) init shutDownConnected s ∧
      s.socket.task.isRunning = false ∧
      s.socket.effects.getLast?.bind Socket.Effect.settled? = some 3 ∧
      TerminationSettles none shutDownConnected s := by
  obtain ⟨s, hrun, hs⟩ := exists_run (M := machine none)
    (show (Machine.exec _ (fun s l => endsSettled s l = true) init shutDownConnected).map
      (fun s => (s.socket.task.isRunning,
        s.socket.effects.getLast?.bind Socket.Effect.settled?)) = some (false, some 3)
      by decide +kernel)
  obtain ⟨hended, hanswered⟩ := Prod.mk.inj hs
  exact ⟨s, hrun, hended, hanswered, terminationSettles hrun⟩

/-- The lobby is asked for before the socket connects, and the socket is shut down. -/
def shutDownUnconnected : List Label :=
  call 0 (.channel lobby none) ++ handle (.channelSpawn uuid₀) 1 ++ [.advance 0]
    ++ call 1 .shutdown ++ handle (.stateCommand .connected) 0 ++ [.select .stop] ++ pollLobby 2

/-- Nobody tells the lobby's listener, which waits for the socket to connect. -/
theorem shutDownUnconnected_not_settles :
    ∃ s, Run (machine none) Free init shutDownUnconnected s ∧
      ¬ TerminationSettles none shutDownUnconnected s := by
  obtain ⟨s, hrun, hs⟩ := exists_run (M := machine none)
    (show (Machine.exec _ Free init shutDownUnconnected).map (fun s => (s.socket.task.hasExited,
      (s.channels.lookup lobbyReference).map (fun w => (w.shutdownRx, w.dropped,
        w.task.waitsForSocket, decide (.connectivity ∈ w.task.disabled))))) =
      some (true, some (false, false, true, true)) by decide +kernel)
  obtain ⟨hexited, hlobby⟩ := Prod.mk.inj hs
  obtain ⟨w, hw, hfacts⟩ := Option.map_eq_some_iff.mp hlobby
  simp only [Prod.mk.injEq, decide_eq_true_eq] at hfacts
  obtain ⟨hshutdown, hdropped, hwaits, hdisabled⟩ := hfacts
  refine ⟨s, hrun, fun h => ?_⟩
  obtain ⟨result, hresult⟩ := Socket.Task.hasExited_iff.mp hexited
  exact h.channels result hresult _ w hw
    (Channel.onlyShutdownMoves_of_disabled hshutdown hdropped hwaits hdisabled)

/-! ## The status of a listener -/

/-- Where no listener ends with an error, each publishes the status of its state, and `ShutDown` in
the end. -/
theorem publishesStatus
    (h : Run (machine strategy) (fun s l => endsNormally s l = true) init ls s) :
    s.StatusPublished := statusPublished_of_run h

theorem publishesStatus_shutDownSocket :
    ∃ s, Run (machine none) (fun s l => endsNormally s l = true) init shutDownSocket s ∧
      (s.socket.task.isRunning, (s.channels.lookup lobbyReference).map (fun w => w.task.isRunning)) =
        (false, some false) ∧ s.StatusPublished := by
  obtain ⟨s, hrun, hs⟩ := exists_run (M := machine none)
    (show (Machine.exec _ (fun s l => endsNormally s l = true) init shutDownSocket).map
      (fun s => (s.socket.task.isRunning,
        (s.channels.lookup lobbyReference).map (fun w => w.task.isRunning))) =
      some (false, some false) by decide +kernel)
  exact ⟨s, hrun, hs, publishesStatus hrun⟩

/-- The lobby's listener ends because its join was dropped, and its status is still `Joining`. -/
theorem lossOnJoin_not_published :
    ∃ s, Run (machine none) Free init lossOnJoin s ∧ ¬ s.StatusPublished := by
  obtain ⟨s, hrun, hs⟩ := exists_run (M := machine none)
    (show (Machine.exec _ Free init lossOnJoin).map
      (fun s => (s.channels.lookup lobbyReference).map (fun w => (w.task.error?, w.status))) =
        some (some (some .socketShutdown, .joining)) by decide +kernel)
  obtain ⟨w, hw, hfacts⟩ := Option.map_eq_some_iff.mp hs
  obtain ⟨herror, hstatus⟩ := Prod.mk.inj hfacts
  refine ⟨s, hrun, fun h => ?_⟩
  rw [(h.channels _ w hw).ended _ (Channel.exited_of_error herror)] at hstatus
  cases hstatus

/-! ## Results and the status -/

/-- The status shows what each caller is told if and only if the listeners set it before the callers
look, or it is right before they set it. -/
theorem resultsShown_iff_resultsPublished (h : Run (machine strategy) Free init ls s) :
    ResultsShown ((machine strategy).steps init ls) ↔
      ResultsPublished ((machine strategy).steps init ls) :=
  resultsShown_iff_of_run h

/-- The socket connects and answers its caller, and has not set its status yet. -/
def answerConnect : List Label :=
  call 0 (.connect 5000000000) ++ [.select (.stateCommand .connected), .deliver, .deliver]

/-- The caller takes its `Ok` when the status is set. -/
theorem resultsShown_publishedConnect :
    ∃ s, Run (machine none) Free init (answerConnect ++ [.publish]) s ∧
      (s.observed (.advance 0)).isSome = true ∧
      ResultsPublished ((machine none).steps init (answerConnect ++ [.publish] ++ [.advance 0])) ∧
      ResultsShown ((machine none).steps init (answerConnect ++ [.publish] ++ [.advance 0])) := by
  obtain ⟨s₁, h₁, hs⟩ := exists_run (M := machine none)
    (show (Machine.exec _ Free init (answerConnect ++ [.publish])).map
      (fun s₁ => ((s₁.observed (.advance 0)).any (fun x => s₁.shows x.2),
        ((machine none).steps init (answerConnect ++ [.publish])).all
          (fun x => (x.1.observed x.2).isNone),
        ((machine none).exec Free s₁ [.advance 0]).isSome)) = some (true, true, true)
      by decide +kernel)
  obtain ⟨hobserved, hquiet, hnext⟩ := by simpa only [Prod.mk.injEq] using hs
  obtain ⟨⟨tx, request⟩, hobserved, hshows⟩ := Option.any_eq_true _ _ |>.mp hobserved
  obtain ⟨s₂, h₂⟩ := Option.isSome_iff_exists.mp hnext
  have hpublished : ResultsPublished
      ((machine none).steps init (answerConnect ++ [.publish] ++ [.advance 0])) := by
    rw [h₁.steps_snoc]
    refine Always.append_iff.mpr ⟨ResultsPublished.of_quiet hquiet, fun tx' request' h => ?_⟩
    cases hobserved.symm.trans h
    exact .inr hshows
  exact ⟨s₁, h₁, Option.isSome_iff_exists.mpr ⟨_, hobserved⟩, hpublished,
    (resultsShown_iff_resultsPublished (h₁.trans (.of_exec h₂))).mpr hpublished⟩

/-- The caller takes its `Ok` before, and reads `NeverConnected`. -/
theorem earlyResult_not_shown :
    ∃ s, Run (machine none) Free init (answerConnect ++ [.advance 0]) s ∧
      ¬ ResultsShown ((machine none).steps init (answerConnect ++ [.advance 0])) := by
  obtain ⟨s₁, h₁, hs⟩ := exists_run (M := machine none)
    (show (Machine.exec _ Free init answerConnect).map
      (fun s₁ => ((s₁.observed (.advance 0)).any (fun x =>
          (((machine none).steps init answerConnect).map Prod.fst ++ [s₁]).all
            (fun y => !y.shows x.2)),
        ((machine none).exec Free s₁ [.advance 0]).isSome)) = some (true, true) by decide +kernel)
  obtain ⟨hobserved, hnext⟩ := Prod.mk.inj hs
  obtain ⟨⟨tx, request⟩, hobserved, hunshown⟩ := Option.any_eq_true _ _ |>.mp hobserved
  obtain ⟨s₂, h₂⟩ := Option.isSome_iff_exists.mp hnext
  refine ⟨s₂, h₁.trans (.of_exec h₂), fun h => ?_⟩
  rw [h₁.steps_snoc] at h
  obtain ⟨y, hy, _, hshows⟩ := (Always.append_iff.mp h).2 tx request hobserved
  have hnot := List.all_eq_true.mp hunshown y hy
  simp [hshows] at hnot

/-! ## Pushes of earlier memberships -/

/-- Where no push arrives in a later membership of its channel than the one it was emitted for, none
is handed to a later membership, or taken in it. -/
theorem membershipsIsolated {emittedFor : Nat → Nat}
    (h : Run (machine strategy) (fun s l => arrivesInTime emittedFor s l = true) init ls s) :
    MembershipsIsolated emittedFor ((machine strategy).steps init ls) s :=
  membershipsIsolated_of_run h

/-- The socket listener hands a push to the lobby, or finds nobody to hand it to. -/
def takePush (message : SocketMessage) (handed : Bool) : List Label :=
  [.select (.socketResult (.ok message) (.ok ()))] ++ (if handed then [.pushed] else []) ++ [.publish]

/-- The server closes the channel of a join of the lobby. -/
def close : SocketMessage :=
  .text (some (.array [.string lobbyReference.reference.text, .null, .string lobby.name,
    .string "phx_close", .object []]))

/-- The joined lobby takes a push. -/
def readPush : List Label := pollLobby 6 ++ [.publishChannel lobbyReference]

def leaveLobby : List Label :=
  call 3 (.channelLeave lobbyReference) ++ pollLobby 4 ++ forwardLobby
    ++ handle (.channelStateCommand uuid₂ (.ok ())) 3 ++ pollLobby 3
    ++ [.publishChannel lobbyReference]

/-- The lobby, which was left, joins again. -/
def rejoinLobby : List Label :=
  call 4 (.channelJoin lobbyReference 5000000000) ++ pollLobby 3 ++ forwardLobby
    ++ handle (.channelStateCommand uuid₃ (.ok ())) 1
    ++ handle (.socketResult (.ok (okReply uuid₃)) (.ok ())) 1 ++ pollLobby 2
    ++ [.publishChannel lobbyReference]

/-- The channel of the first join is closed before the lobby joins again. -/
def closeInTime : List Label :=
  joinedLobby ++ takePush notice true ++ readPush ++ leaveLobby ++ takePush close false
    ++ rejoinLobby ++ takePush notice true ++ readPush

/-- The first eight iterations come before the reply to the second join. -/
def twoJoins (n : Nat) : Nat := if n < 8 then 1 else 2

theorem membershipsIsolated_closeInTime :
    ∃ s, Run (machine none) (fun s l => arrivesInTime twoJoins s l = true) init closeInTime s ∧
      Socket.Emits twoJoins s.socket.trace ∧
      (s.channels.lookup lobbyReference).map (fun w => (w.status, w.events.length)) =
        some (.joined, 2) ∧
      MembershipsIsolated twoJoins ((machine none).steps init closeInTime) s := by
  obtain ⟨s, hrun, hs⟩ := exists_run (M := machine none)
    (show (Machine.exec _ (fun s l => arrivesInTime twoJoins s l = true) init closeInTime).map
      (fun s => (decide (Socket.Emits twoJoins s.socket.trace),
        (s.channels.lookup lobbyReference).map (fun w => (w.status, w.events.length)))) =
      some (true, some (.joined, 2)) by decide +kernel)
  obtain ⟨hemits, hlobby⟩ := Prod.mk.inj hs
  exact ⟨s, hrun, of_decide_eq_true hemits, hlobby, membershipsIsolated hrun⟩

/-- The channel of the first join is closed, and the lobby has joined again when it hears of it. -/
def closeLate : List Label :=
  joinedLobby ++ leaveLobby ++ rejoinLobby ++ takePush close true ++ readPush

/-- The late `phx_close` moves the second membership out of `Joined`. -/
theorem closeLate_not_isolated :
    ∃ s, Run (machine none) Free init closeLate s ∧ Socket.Emits (fun _ => 1) s.socket.trace ∧
      (s.channels.lookup lobbyReference).map Channel.World.status =
        some (.waitingToRejoin 0) ∧
      ¬ MembershipsIsolated (fun _ => 1) ((machine none).steps init closeLate) s := by
  obtain ⟨s, hrun, hs⟩ := exists_run (M := machine none)
    (show (Machine.exec _ Free init closeLate).map
      (fun s => (decide (Socket.Emits (fun _ => 1) s.socket.trace),
        (s.channels.lookup lobbyReference).map Channel.World.status,
        (s.socket.trace.drop 7).map fun e => e.handed?.map fun x =>
          Socket.joinNumber x.2.key x.1 (s.socket.trace.take 7))) =
      some (true, some (.waitingToRejoin 0), [some 2]) by decide +kernel)
  simp only [Prod.mk.injEq] at hs
  obtain ⟨hemits, hstatus, hlate⟩ := hs
  obtain ⟨e, hdrop, hnumber⟩ := List.map_eq_singleton_iff.mp hlate
  obtain ⟨⟨tx, push⟩, hhanded, hnumber⟩ := Option.map_eq_some_iff.mp hnumber
  refine ⟨s, hrun, of_decide_eq_true hemits, hstatus, fun h => ?_⟩
  have hsplit : s.socket.trace = s.socket.trace.take 7 ++ e :: [] := by
    rw [← hdrop, List.take_append_drop]
  have hle := h.handed _ e [] hsplit tx push hhanded
  rw [hnumber] at hle
  exact absurd hle (by decide)

/-! ## Events of members -/

/-- Where no broadcast is sent to a channel while as many wait for it as there is room for, the
channel gets all that the web socket gives for it. -/
theorem deliversEvents {c : JoinReference}
    (h : Run (machine strategy) (fun s l => keepsUp c s l = true) init ls s) :
    DeliversEvents strategy c ((machine strategy).steps init ls) s :=
  deliversEvents_of_run h

/-- A broadcast on the topic of the lobby. -/
def announcement : SocketMessage :=
  .text (some (.array [.null, .null, .string lobby.name, .string "announcement", .object []]))

def takeAnnouncement : List Label := handle (.socketResult (.ok announcement) (.ok ())) 1

/-- The lobby takes a broadcast and a push, and one more broadcast waits. -/
def readAnnouncement : List Label :=
  joinedLobby ++ takeAnnouncement ++ pollLobby 7 ++ [.publishChannel lobbyReference]
    ++ takePush notice true ++ readPush ++ takeAnnouncement

/-- What the joined lobby was sent and what it has not read yet. -/
def lobbyReads (s : System) : Option (Nat × Nat) :=
  (s.channels.lookup lobbyReference).bind fun w => w.task.joined?.map fun joined =>
    (w.events.length, ((s.broadcasts joined.broadcastRx.tx).unread joined.broadcastRx.next).length)

theorem deliversEvents_readAnnouncement :
    ∃ s, Run (machine none) (fun s l => keepsUp lobbyReference s l = true) init readAnnouncement s ∧
      (s.socket.task.isConnected, s.lobbyReads) = (true, some (2, 1)) ∧
      DeliversEvents none lobbyReference ((machine none).steps init readAnnouncement) s := by
  obtain ⟨s, hrun, hs⟩ := exists_run (M := machine none)
    (show (Machine.exec _ (fun s l => keepsUp lobbyReference s l = true) init readAnnouncement).map
      (fun s => (s.socket.task.isConnected, s.lobbyReads)) = some (true, some (2, 1))
      by decide +kernel)
  exact ⟨s, hrun, hs, deliversEvents hrun⟩

/-- Seventy broadcasts come before the lobby polls again. -/
def manyAnnouncements : List Label :=
  joinedLobby ++ (List.replicate 70 takeAnnouncement).flatten ++ pollLobby 7

/-- What the lobby has taken of its broadcasts, and still can take, and what came for it. -/
def lobbyBroadcasts (past : List (System × Label)) (s : System) : Option (Nat × Nat) :=
  (s.channels.lookup lobbyReference).bind fun w => w.task.joined?.map fun joined =>
    ((broadcastsTaken joined.pushRx (deliveries past) ++
        (s.broadcasts joined.broadcastRx.tx).unread joined.broadcastRx.next ++
        s.undelivered.filterMap (Socket.Effect.broadcast? joined.broadcastRx.tx)).length,
      (Socket.broadcastsOn w.listener.topic (s.socket.trace.drop (joined.pushRx + 1))).length)

/-- The lobby is joined, on the connection of its join, and has disabled the branch of its
broadcasts. -/
def lobbyStuck (s : System) : Bool :=
  (s.channels.lookup lobbyReference).any fun w => w.task.broadcastDisabled &&
    w.task.joined?.any fun joined => s.socket.task.isConnected &&
      (s.socket.trace.drop (joined.pushRx + 1)).all fun e => !e.broadcastsConnected

/-- Six broadcasts are lost, and sixty-four that can still be read wait for another event. -/
theorem manyAnnouncements_not_delivered :
    ∃ s, Run (machine none) Free init manyAnnouncements s ∧ s.lobbyStuck = true ∧
      ¬ DeliversEvents none lobbyReference ((machine none).steps init manyAnnouncements) s := by
  obtain ⟨s, hrun, hs⟩ := exists_run (M := machine none)
    (show (Machine.exec _ Free init manyAnnouncements).map (fun s => (s.lobbyStuck,
        lobbyBroadcasts ((machine none).steps init manyAnnouncements) s)) =
      some (true, some (64, 70)) by decide +kernel)
  obtain ⟨hstuck, hlengths⟩ := Prod.mk.inj hs
  obtain ⟨w, hw, hlengths⟩ := Option.bind_eq_some_iff.mp hlengths
  obtain ⟨joined, hj, hlengths⟩ := Option.map_eq_some_iff.mp hlengths
  obtain ⟨htaken, hon⟩ := Prod.mk.inj hlengths
  refine ⟨s, hrun, hstuck, fun h => ?_⟩
  simp only [lobbyStuck, hw, hj, Option.any_some, Bool.and_eq_true, List.all_eq_true,
    Bool.not_eq_true'] at hstuck
  obtain ⟨_, hconnected, hsame⟩ := hstuck
  have hbroadcasts := (h w joined ⟨hw, hj, hconnected, hsame⟩).broadcasts
  rw [hbroadcasts, hon] at htaken
  cases htaken

end PhoenixChannels.System
