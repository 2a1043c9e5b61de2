import Mathlib.Data.List.Induction
import PhoenixChannels.Presences.Lemmas.Proper
import PhoenixChannels.Presences.Lemmas.Recovery
import PhoenixChannels.System.Theorems

/-!
# Theorems on the presence listener

What its events tell a subscriber, and what it makes of the events of its channel.
-/

namespace PhoenixChannels.Presences

open Machine
open Socket (lobby lobbyReference)
open PhoenixChannels.System (joinedLobby pollLobby)

/-! ## The events of the listener -/

/-- The events tell a subscriber all that happens to the map exactly if no presence state lacks a
key that the listener has. -/
theorem eventsComplete_iff_keepsAllKeys (map : PresenceByKey) (inputs : List Input) :
    EventsComplete map inputs ↔ KeepsAllKeys map inputs := by
  induction inputs using List.reverseRecOn with
  | nil => exact iff_of_true .nil .nil
  | append_singleton inputs input ih =>
      have hstep : EventsComplete map inputs →
          (input.Told (replay map (receiveAll inputs map).2) (receiveAll inputs map).1 ↔
            input.KeepsKeys (receiveAll inputs map).1) := fun h => told_iff h.sameMap
      unfold EventsComplete KeepsAllKeys at *
      rw [History.Always.append_iff, History.Always.append_iff, ← ih]
      exact and_congr_right hstep

/-- A presence state with one meta for each of the keys. -/
def stateOf (keys : List String) : EventPayload where
  event := .user "presence_state"
  payload := .value (.object (keys.map (fun key =>
    (key, .object [("metas", .array [.object [("phx_ref", .string key)]])]))))

/-- A user joins, and the next presence state is empty. The listener has no user any more, but no
leave was sent. -/
theorem emptyState_not_complete :
    ¬ EventsComplete ∅ [⟨stateOf ["user"], .written⟩, ⟨stateOf [], .written⟩] := by
  intro h
  have hsame := congrArg Option.isSome (h.sameMap "user")
  have htold : ((replay ∅ (receiveAll [⟨stateOf ["user"], .written⟩, ⟨stateOf [], .written⟩]
      ∅).2).lookup "user").isSome = true := by decide +kernel
  have hgone : ((receiveAll [⟨stateOf ["user"], .written⟩, ⟨stateOf [], .written⟩]
      ∅).1.lookup "user").isSome = false := by decide +kernel
  rw [htold, hgone] at hsame
  cases hsame

/-! ## The events of the channel -/

/-- Where the listener skips no event that would change its map, it has the map that all events since
`Channel::presences` returned make, whenever it has read all of them. -/
theorem tracksPresences {strategy : Option (Nat → Duration)} {ls₀ : List System.Label} {s₀ : System}
    {channel : JoinReference} {ls : List Client.Label} {t : Client}
    (h₀ : Run (System.machine strategy) Free System.init ls₀ s₀)
    (h : Run (Client.machine strategy) (fun t l => t.skipsNoPresences l = true)
      (Client.spawn s₀ channel) ls t) : t.Tracks :=
  Client.Followed.tracks (Client.followed_of_run h₀ h)

/-- A presence state of the server for the lobby, with one user. -/
def stateFrame : SocketMessage :=
  .text (some (.array [.string lobbyReference.reference.text, .null, .string lobby.name,
    .string "presence_state", .object [("user", .object [("metas",
      .array [.object [("phx_ref", .string "user")]])])]]))

/-- The presence state goes through the socket listener and the lobby's listener. -/
def takeState : List Client.Label :=
  List.map .system
    (([.select (.socketResult (.ok stateFrame) (.ok ())), .pushed, .publish] : List System.Label)
      ++ pollLobby 6 ++ [.publishChannel lobbyReference])

/-- `Channel::presences` is called on the joined lobby, and the run goes on with `ls`. -/
def afterPresences (ok : Client → Client.Label → Bool) (ls : List Client.Label) (s₀ : System) :
    Option Client :=
  (Client.machine none).exec (fun t l => ok t l = true) (Client.spawn s₀ lobbyReference) ls

/-- What the listener has under the key of the user, and what it should have. -/
def users (t : Client) : Bool × Bool :=
  ((t.presences.presenceByKey.lookup "user").isSome,
    ((applyAll (t.eventPayloads.sent.drop t.presences.since)).lookup "user").isSome)

/-- The task of the listener is scheduled before the presence state arrives. -/
theorem tracksPresences_promptStart :
    ∃ s₀ t, Run (System.machine none) Free System.init joinedLobby s₀ ∧
      Run (Client.machine none) (fun t l => t.skipsNoPresences l = true)
        (Client.spawn s₀ lobbyReference) ([.start] ++ takeState ++ [.receive .written]) t ∧
      (t.unread.length, users t) = (0, true, true) ∧ t.Tracks := by
  obtain ⟨s₀, h₀, hs⟩ := exists_run (M := System.machine none)
    (show (Machine.exec _ Free System.init joinedLobby).map (fun s₀ =>
      (afterPresences Client.skipsNoPresences ([.start] ++ takeState ++ [.receive .written]) s₀).map
        (fun t => (t.unread.length, users t))) = some (some (0, true, true)) by decide +kernel)
  obtain ⟨t, hrun, ht⟩ := exists_run (M := Client.machine none) hs
  exact ⟨s₀, t, h₀, hrun, ht, tracksPresences h₀ hrun⟩

/-- The presence state arrives before the task of the listener is scheduled: it has nothing to read
and no user. -/
theorem lateStart_not_tracks :
    ∃ s₀ t, Run (System.machine none) Free System.init joinedLobby s₀ ∧
      Run (Client.machine none) Free (Client.spawn s₀ lobbyReference) (takeState ++ [.start]) t ∧
      ¬ t.Tracks := by
  obtain ⟨s₀, h₀, hs⟩ := exists_run (M := System.machine none)
    (show (Machine.exec _ Free System.init joinedLobby).map (fun s₀ =>
      (afterPresences (fun _ _ => true) (takeState ++ [.start]) s₀).map
        (fun t => (t.isListening, t.unread.isEmpty, users t))) =
      some (some (true, true, false, true)) by decide +kernel)
  obtain ⟨t, hrun, ht⟩ := exists_run (M := Client.machine none) hs
  simp only [Prod.mk.injEq, List.isEmpty_iff, users] at ht
  obtain ⟨hlistening, hunread, huser, hshould⟩ := ht
  refine ⟨s₀, t, h₀, hrun.free, fun htracks => ?_⟩
  have hsame := congrArg Option.isSome (htracks hlistening hunread "user")
  rw [huser, hshould] at hsame
  cases hsame

/-- Whatever a listener has missed, once it reads a presence state it has the connections that it would
have if it had read every event of the channel, until it skips another event that would change its
map. -/
theorem recoversPresences {strategy : Option (Nat → Duration)} {ls₀ : List System.Label}
    {s₀ : System} {channel : JoinReference} {ls ls' : List Client.Label} {t t' t'' : Client}
    {label : Client.Label} {e : EventPayload}
    (h₀ : Run (System.machine strategy) Free System.init ls₀ s₀)
    (h : Run (Client.machine strategy) Free (Client.spawn s₀ channel) ls t)
    (hread : t.read? label = some e) (hreplaces : e.replaces = true)
    (hstep : Client.step strategy t label = some t')
    (h' : Run (Client.machine strategy) (fun t l => t.skipsNoPresences l = true) t' ls' t'') :
    t''.Recovered :=
  Client.recovered_of_run h₀ h hread hreplaces hstep h'

/-- The listener that started too late reads the next presence state, and has the user. -/
theorem recoversPresences_lateStart :
    ∃ s₀ t t', Run (System.machine none) Free System.init joinedLobby s₀ ∧
      Run (Client.machine none) Free (Client.spawn s₀ lobbyReference)
        (takeState ++ [.start] ++ takeState) t ∧
      Client.step none t (.receive .written) = some t' ∧
      (users t, users t') = ((false, true), (true, true)) ∧ t'.Recovered := by
  obtain ⟨s₀, h₀, hs⟩ := exists_run (M := System.machine none)
    (show (Machine.exec _ Free System.init joinedLobby).map (fun s₀ =>
      (afterPresences (fun _ _ => true) (takeState ++ [.start] ++ takeState) s₀).map (fun t =>
        ((t.read? (.receive .written)).map EventPayload.replaces, users t,
          (Client.step none t (.receive .written)).map users))) =
      some (some (some true, (false, true), some (true, true))) by decide +kernel)
  obtain ⟨t, hrun, ht⟩ := exists_run (M := Client.machine none) hs
  simp only [Prod.mk.injEq, Option.map_eq_some_iff] at ht
  obtain ⟨⟨e, hread, hreplaces⟩, hbefore, t', hstep, hafter⟩ := ht
  have hrecovered := recoversPresences h₀ hrun.free hread hreplaces hstep .nil
  exact ⟨s₀, t, t', h₀, hrun.free, hstep, by rw [hbefore, hafter], hrecovered⟩

/-! ## Presence states and diffs -/

theorem presenceState_converges (orders : Orders) (self new : PresenceByKey) :
    Converges self new (self.sync orders new).1 where
  references := referencesAt_sync orders self new
  keys _ := mem_of_mem_sync
  contents key reference h := by
    rw [metasAt_sync]
    exact Referenced.filter_synced h
  again orders' hnew := sync_of_same_references orders' (fun _ => mem_of_mem_sync)
    (referencesAt_sync orders self new) hnew

/-- A presence with a meta for each of the references. -/
def presenceOf (references : List String) : Presence := ⟨references.map fun r => ⟨r, ∅⟩⟩

def usersBefore : PresenceByKey :=
  ((∅ : PresenceByKey).insert "gone" (presenceOf ["a"])).insert "user" (presenceOf ["b", "c"])

def usersAfter : PresenceByKey :=
  ((∅ : PresenceByKey).insert "new" (presenceOf ["d"])).insert "user" (presenceOf ["c", "e"])

theorem presenceState_converges_users :
    let map := (usersBefore.sync .written usersAfter).1
    Converges usersBefore usersAfter map ∧ referencesAt map "user" = ["e", "c"] ∧
      map.sync .written usersAfter = (map, []) := by
  have hconverges := presenceState_converges .written usersBefore usersAfter
  refine ⟨hconverges, by decide, hconverges.again .written ?_⟩
  intro key presence h
  have hmem := AList.mem_lookup_iff.mp h
  have hall : ∀ e ∈ usersAfter.entries, e.2.metas.isEmpty = false := by decide
  simpa using hall _ hmem

theorem presenceDiff_applies (orders : Orders) (self joined left : PresenceByKey) :
    AppliesDiff self joined left (self.syncDiff orders joined left) where
  updates := updatesKeys_syncDiff orders self joined left
  events := emitsDiff_syncDiff orders self joined left
  anyOrder orders' :=
    (updatesKeys_syncDiff orders' self joined left).sameMap (updatesKeys_syncDiff ..)
  again orders' :=
    (updatesKeys_syncDiff orders self joined left).again (updatesKeys_syncDiff orders' ..)

/-- From presences with a connection each, and none twice, a listener never has or lists others. -/
theorem presences_stayProper :
    (∀ inputs : List Input, (∀ input ∈ inputs, input.eventPayload.newPresences.Proper) →
      PresenceByKey.Proper (receiveAll inputs ∅).1) ∧
    ∀ (strategy : Option (Nat → Duration)) (s₀ : System) (channel : JoinReference)
      (ls : List Client.Label) (t : Client),
      Run (Client.machine strategy) (fun t l => t.receivesProper l = true)
        (Client.spawn s₀ channel) ls t → t.ListsProper :=
  ⟨proper_receiveAll, fun _ _ _ _ _ h => Client.listsProper_of_run h⟩

theorem presences_stayProper_state :
    PresenceByKey.Proper (receiveAll [⟨stateOf ["user"], .written⟩,
      ⟨⟨.user "presence_state", .binary []⟩, .written⟩] ∅).1 ∧
    ∃ s₀ t, Run (System.machine none) Free System.init joinedLobby s₀ ∧
      Run (Client.machine none) (fun t l => t.receivesProper l = true)
        (Client.spawn s₀ lobbyReference) ([.start] ++ takeState ++ [.receive .written, .list]) t ∧
      t.presences.listed.map List.length = [1] ∧ t.ListsProper := by
  obtain ⟨s₀, h₀, hs⟩ := exists_run (M := System.machine none)
    (show (Machine.exec _ Free System.init joinedLobby).map (fun s₀ =>
      (afterPresences Client.receivesProper ([.start] ++ takeState ++ [.receive .written, .list])
        s₀).map (fun t => t.presences.listed.map List.length)) = some (some [1]) by decide +kernel)
  obtain ⟨t, hrun, ht⟩ := exists_run (M := Client.machine none) hs
  refine ⟨presences_stayProper.1 _ ?_, s₀, t, h₀, hrun, ht, presences_stayProper.2 _ _ _ _ _ hrun⟩
  intro input hinput
  simp only [List.mem_cons, List.not_mem_nil, or_false] at hinput
  rcases hinput with rfl | rfl <;> decide +kernel

end PhoenixChannels.Presences
