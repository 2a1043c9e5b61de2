import PhoenixChannels.Lib.History
import PhoenixChannels.Presences.Lemmas.Sync

/-!
# Replaying the events

A subscriber that keeps a map of its own, and changes it only by the events it gets.
-/

namespace PhoenixChannels.Presences

variable {orders : Orders} {self joined left new held map : PresenceByKey} {key : String}

/-! ## The map of a subscriber -/

def Event.apply (held : PresenceByKey) : Event → PresenceByKey
  | join j => held.insert j.key j.joined
  | leave l => if l.current.metas.isEmpty then held.erase l.key else held.insert l.key l.current
  | sync => held

def replay (held : PresenceByKey) (events : List Event) : PresenceByKey :=
  events.foldl Event.apply held

/-- What an event tells a subscriber to hold under its key. -/
def Event.told : Event → Option Presence
  | join j => some j.joined
  | leave l => if l.current.metas.isEmpty then none else some l.current
  | sync => none

def SameMap (held map : PresenceByKey) : Prop := ∀ key, held.lookup key = map.lookup key

theorem lookup_apply (held : PresenceByKey) (e : Event) :
    (e.apply held).lookup key = if e.key? = some key then e.told else held.lookup key := by
  cases e with
  | join j => simp [Event.apply, Event.key?, Event.told, Dict.lookup_insert_eq, eq_comm]
  | leave l =>
      simp only [Event.apply, Event.key?, Event.told, Option.some.injEq, @eq_comm _ l.key]
      split
      · rw [Dict.lookup_erase_eq]
      · rw [Dict.lookup_insert_eq]
  | sync => rfl

/-- What a subscriber holds under a key follows from the events about the key. -/
theorem lookup_replay (held : PresenceByKey) (events : List Event) :
    (replay held events).lookup key =
      (events.filter (fun e => e.key? = some key)).foldl (fun _ e => e.told) (held.lookup key) := by
  induction events generalizing held with
  | nil => rfl
  | cons e events ih =>
      have hstep : replay held (e :: events) = replay (e.apply held) events := rfl
      rw [hstep, ih, lookup_apply, List.filter_cons]
      by_cases hkey : e.key? = some key <;> simp [hkey]

/-! ## Following a key -/

/-- The events about a key lead from `start` to what is under the key. -/
def Seen.Follows (start : Option Presence) (seen : Seen) : Prop :=
  seen.2.foldl (fun _ e => e.told) start = seen.1

theorem follows_iff {synced : Synced} :
    Seen.Follows (held.lookup key) (Synced.seen key synced) ↔
      (replay held synced.2).lookup key = synced.1.lookup key := by
  rw [lookup_replay]
  rfl

theorem follows_joinSeen {start : Option Presence} (seen : Seen) (joined : Presence) :
    Seen.Follows start (joinSeen key seen joined) := by
  simp [Seen.Follows, joinSeen, Event.told]

theorem follows_leaveSeen {start : Option Presence} {seen : Seen} (h : Seen.Follows start seen)
    (left : Presence) : Seen.Follows start (leaveSeen key seen left) := by
  unfold leaveSeen
  split
  · simp [Seen.Follows, Event.told]
  · exact h

theorem follows_diffSeen {start : Option Presence} {seen : Seen} (h : Seen.Follows start seen)
    (joined? left? : Option Presence) :
    Seen.Follows start (diffSeen key seen joined? left?) := by
  have hjoined : Seen.Follows start ((joined?.map (joinSeen key seen)).getD seen) := by
    cases joined? with
    | none => exact h
    | some joined => exact follows_joinSeen seen joined
  cases left? with
  | none => exact hjoined
  | some left => exact follows_leaveSeen hjoined left

/-- The events of `sync_diff` tell all that it changes. -/
theorem sameMap_syncDiff (h : SameMap held self) :
    SameMap (replay held (self.syncDiff orders joined left).2)
      (self.syncDiff orders joined left).1 := by
  intro key
  rw [← follows_iff, seen_syncDiff]
  exact follows_diffSeen (show Seen.Follows _ (self.lookup key, []) from h key) _ _

/-- The events of `sync` tell what becomes of a key exactly if the key is not removed at once. -/
theorem follows_sync_iff (h : held.lookup key = self.lookup key) :
    (replay held (self.sync orders new).2).lookup key = (self.sync orders new).1.lookup key ↔
      (key ∈ self → key ∈ new) := by
  rw [← follows_iff, seen_sync]
  by_cases hnew : key ∈ new
  · simp only [hnew, ↓reduceIte, implies_true, iff_true]
    exact follows_diffSeen (show Seen.Follows _ (self.lookup key, []) from h) _ _
  · have hnone : new.lookup key = none := AList.lookup_eq_none.mpr hnew
    simp only [hnew, ↓reduceIte, hnone, imp_false, ← AList.lookup_eq_none, h]
    cases self.lookup key with
    | none => simp [joinedAt, leftAt, diffSeen, Seen.Follows]
    | some current => simp [joinedAt, leftAt, diffSeen, leaveSeen, Seen.Follows]

theorem sameMap_sync_iff (orders : Orders) (h : SameMap held self) :
    SameMap (replay held (self.sync orders new).2) (self.sync orders new).1 ↔
      ∀ key ∈ self, key ∈ new := by
  constructor
  · intro hsame key
    exact (follows_sync_iff (h key)).mp (hsame key)
  · intro hkeys key
    exact (follows_sync_iff (h key)).mpr (hkeys key)

/-! ## What a presence state removes -/

/-- Each key and each meta that is in `map` but no longer in `map'` is announced by a leave. -/
structure RemovalsAnnounced (map map' : PresenceByKey) (events : List Event) : Prop where
  keys : ∀ key ∈ map, key ∉ map' → ∃ l, .leave l ∈ events ∧ l.key = key
  metas : ∀ key presence, map.lookup key = some presence → ∀ m ∈ presence.metas,
    (∀ presence', map'.lookup key = some presence' → m ∉ presence'.metas) →
      ∃ l, .leave l ∈ events ∧ l.key = key ∧ m ∈ l.left.metas

theorem mem_without {presence : Presence} {references : List String} {m : Meta} :
    m ∈ (presence.without references).metas ↔
      m ∈ presence.metas ∧ m.joinReference ∉ references := by
  simp [Presence.without]

theorem mem_merge {current presence : Presence} {m : Meta} (h : m ∈ current.metas) :
    m ∈ (PresenceByKey.merge (presence.without current.joinReferences) (some current)).metas := by
  refine List.mem_append_right _ (mem_without.mpr ⟨h, fun href => ?_⟩)
  obtain ⟨m', hm', heq⟩ := List.mem_map.mp href
  exact (mem_without.mp hm').2 (heq ▸ List.mem_map_of_mem h)

theorem joined_of_both (key : String) (current presence : Presence) :
    ∃ merged events, ((joinedAt (some current) (some presence)).map
        (joinSeen key (some current, []))).getD (some current, []) = (some merged, events) ∧
      ∀ m ∈ current.metas, m ∈ merged.metas := by
  unfold joinedAt
  by_cases hempty : (presence.without current.joinReferences).metas.isEmpty = true
  · exact ⟨current, [], by simp [hempty], fun _ h => h⟩
  · exact ⟨_, _, by simp only [hempty]; rfl, fun _ h => mem_merge h⟩

/-- A key that both presences have, after `sync`: without a leave all metas are still there, and a
leave carries those that are not. -/
theorem left_of_both (key : String) (current presence : Presence) :
    let seen := diffSeen key (some current, []) (joinedAt (some current) (some presence))
      (leftAt (some current) (some presence))
    (∃ merged, seen.1 = some merged ∧ ∀ m ∈ current.metas, m ∈ merged.metas) ∨
      ∃ l, .leave l ∈ seen.2 ∧ l.key = key ∧ ∀ m ∈ current.metas,
        m ∈ l.left.metas ∨ ∃ kept, seen.1 = some kept ∧ m ∈ kept.metas := by
  obtain ⟨merged, events, hjoined, hmerged⟩ := joined_of_both key current presence
  simp only [diffSeen, hjoined]
  unfold leftAt
  by_cases hempty : (current.without presence.joinReferences).metas.isEmpty = true
  · exact .inl ⟨merged, by simp [hempty], hmerged⟩
  right
  simp only [hempty, leaveSeen, Bool.false_eq_true, ↓reduceIte, Option.map_some, Option.getD_some]
  refine ⟨_, List.mem_append_right _ (List.mem_singleton.mpr rfl), rfl, fun m hm => ?_⟩
  by_cases hleft : m.joinReference ∈ (current.without presence.joinReferences).joinReferences
  · obtain ⟨m', hm', heq⟩ := List.mem_map.mp hleft
    exact .inl (mem_without.mpr ⟨hm, heq ▸ (mem_without.mp hm').2⟩)
  · have hkept := mem_without.mpr ⟨hmerged m hm, hleft⟩
    refine .inr ⟨_, if_neg ?_, hkept⟩
    intro hnil
    rw [List.isEmpty_iff.mp hnil] at hkept
    cases hkept

/-- Where no key is removed at once, `sync` announces all that it removes. -/
theorem removalsAnnounced_sync (h : ∀ key ∈ self, key ∈ new) :
    RemovalsAnnounced self (self.sync orders new).1 (self.sync orders new).2 := by
  have hboth : ∀ key current, self.lookup key = some current →
      (∃ merged, (self.sync orders new).1.lookup key = some merged ∧
        ∀ m ∈ current.metas, m ∈ merged.metas) ∨
      ∃ l, .leave l ∈ (self.sync orders new).2 ∧ l.key = key ∧ ∀ m ∈ current.metas,
        m ∈ l.left.metas ∨ ∃ kept, (self.sync orders new).1.lookup key = some kept ∧
          m ∈ kept.metas := by
    intro key current hcurrent
    have hnew := h key (AList.lookup_isSome.mp (by simp [hcurrent]))
    obtain ⟨presence, hpresence⟩ := Option.isSome_iff_exists.mp (AList.lookup_isSome.mpr hnew)
    have hseen := seen_sync orders self new key
    simp only [hnew, ↓reduceIte, hcurrent, hpresence] at hseen
    obtain ⟨hlookup, hevents⟩ := Prod.ext_iff.mp hseen
    simp only [Synced.seen] at hlookup hevents
    have hcases := left_of_both key current presence
    simp only [← hlookup, ← hevents, List.mem_filter] at hcases
    rcases hcases with hkept | ⟨l, ⟨hl, _⟩, hkey, hmetas⟩
    · exact .inl hkept
    · exact .inr ⟨l, hl, hkey, hmetas⟩
  constructor
  · intro key hmem hgone
    obtain ⟨current, hcurrent⟩ := Option.isSome_iff_exists.mp (AList.lookup_isSome.mpr hmem)
    rcases hboth key current hcurrent with ⟨merged, hmerged, _⟩ | ⟨l, hl, hkey, _⟩
    · rw [AList.lookup_eq_none.mpr hgone] at hmerged
      cases hmerged
    · exact ⟨l, hl, hkey⟩
  · intro key current hcurrent m hm hgone
    rcases hboth key current hcurrent with ⟨merged, hmerged, hall⟩ | ⟨l, hl, hkey, hmetas⟩
    · exact absurd (hall m hm) (hgone merged hmerged)
    · rcases hmetas m hm with hleft | ⟨kept, hkept, hmem⟩
      · exact ⟨l, hl, hkey, hleft⟩
      · exact absurd hmem (hgone kept hkept)

/-! ## Sequences of events -/

/-- An event of the channel, with the orders of the maps when it is handled. -/
structure Input where
  eventPayload : EventPayload
  orders : Orders

namespace Input

def received (map : PresenceByKey) (input : Input) : Synced :=
  Presences.received input.orders map input.eventPayload

def isState (input : Input) : Prop := input.eventPayload.event = .user "presence_state"

/-- What a subscriber should find after the event: the map of the listener, and each removal by a
presence state announced. -/
structure Told (held map : PresenceByKey) (input : Input) : Prop where
  sameMap : SameMap (replay held (input.received map).2) (input.received map).1
  removals : input.isState → RemovalsAnnounced map (input.received map).1 (input.received map).2

/-- A presence state has every key that the listener has. -/
def KeepsKeys (map : PresenceByKey) (input : Input) : Prop :=
  input.isState → ∀ new, PresenceByKey.ofPayload input.eventPayload.payload = .ok new →
    ∀ key ∈ map, key ∈ new

end Input

/-- All inputs in a row, with all events that are sent. -/
def receiveAll (inputs : List Input) (map : PresenceByKey) : Synced :=
  inputs.foldl (fun synced input =>
    ((input.received synced.1).1, synced.2 ++ (input.received synced.1).2)) (map, [])

/-- A subscriber that starts with the map of the listener is told all that happens to it. -/
def EventsComplete (map : PresenceByKey) (inputs : List Input) : Prop :=
  History.Always (fun before input =>
    input.Told (replay map (receiveAll before map).2) (receiveAll before map).1) inputs

def KeepsAllKeys (map : PresenceByKey) (inputs : List Input) : Prop :=
  History.Always (fun before input => input.KeepsKeys (receiveAll before map).1) inputs

/-! ### One event -/

theorem replay_append (held : PresenceByKey) (events events' : List Event) :
    replay held (events ++ events') = replay (replay held events) events' :=
  List.foldl_append

theorem replay_sync (held : PresenceByKey) (events : List Event) :
    replay held (events ++ [.sync]) = replay held events := by
  rw [replay_append]
  rfl

theorem RemovalsAnnounced.append {map' : PresenceByKey} {events : List Event}
    (h : RemovalsAnnounced map map' events) (events' : List Event) :
    RemovalsAnnounced map map' (events ++ events') where
  keys key hmem hgone := by
    obtain ⟨l, hl, hkey⟩ := h.keys key hmem hgone
    exact ⟨l, List.mem_append_left _ hl, hkey⟩
  metas key presence hlookup m hm hgone := by
    obtain ⟨l, hl, hkey, hleft⟩ := h.metas key presence hlookup m hm hgone
    exact ⟨l, List.mem_append_left _ hl, hkey, hleft⟩

theorem removalsAnnounced_refl (map : PresenceByKey) : RemovalsAnnounced map map [] where
  keys _ hmem hgone := absurd hmem hgone
  metas _ _ hlookup _ hm hgone := absurd hm (hgone _ hlookup)

theorem Input.Told.of_ignored {input : Input} (h : SameMap held map)
    (hignored : input.received map = (map, [])) : input.Told held map where
  sameMap := by simpa [hignored, replay] using h
  removals _ := by simpa [hignored] using removalsAnnounced_refl map

theorem Input.received_cases (map : PresenceByKey) (input : Input) :
    (input.isState ∧
        input.received map = presenceState input.orders map input.eventPayload.payload) ∨
      (¬ input.isState ∧
        input.received map = presenceDiff input.orders map input.eventPayload.payload) ∨
      (¬ input.isState ∧ input.received map = (map, [])) := by
  obtain ⟨⟨event, payload⟩, orders⟩ := input
  simp only [Input.isState, Input.received, Presences.received]
  split
  · exact .inl ⟨rfl, rfl⟩
  · exact .inr (.inl ⟨by decide, rfl⟩)
  · rename_i hstate _
    exact .inr (.inr ⟨hstate, rfl⟩)

theorem told_iff {input : Input} (h : SameMap held map) :
    input.Told held map ↔ input.KeepsKeys map := by
  rcases input.received_cases map with ⟨hstate, heq⟩ | ⟨hstate, heq⟩ | ⟨hstate, heq⟩
  · unfold presenceState at heq
    cases hnew : PresenceByKey.ofPayload input.eventPayload.payload with
    | ok new =>
        simp only [hnew] at heq
        have hkeeps : input.KeepsKeys map ↔ ∀ key ∈ map, key ∈ new := by
          simp [Input.KeepsKeys, hstate, hnew]
        rw [hkeeps, ← sameMap_sync_iff input.orders h]
        constructor
        · intro htold
          simpa only [heq, replay_sync] using htold.sameMap
        · intro hsame
          refine ⟨by simpa only [heq, replay_sync] using hsame, fun _ => ?_⟩
          rw [heq]
          exact (removalsAnnounced_sync ((sameMap_sync_iff input.orders h).mp hsame)).append _
    | error error =>
        simp only [hnew] at heq
        refine ⟨fun _ _ new hok => ?_, fun _ => .of_ignored h heq⟩
        cases hnew.symm.trans hok
  · have hkeeps : input.KeepsKeys map := fun hs => absurd hs hstate
    refine ⟨fun _ => hkeeps, fun _ => ⟨?_, fun hs => absurd hs hstate⟩⟩
    unfold presenceDiff at heq
    cases hdiff : Diff.ofPayload input.eventPayload.payload with
    | ok diff =>
        simp only [hdiff] at heq
        rw [heq, replay_sync]
        exact sameMap_syncDiff h
    | error error =>
        simp only [hdiff] at heq
        rw [heq]
        exact h
  · exact ⟨fun _ hs => absurd hs hstate, fun _ => .of_ignored h heq⟩

/-! ### All events -/

theorem receiveAll_concat (inputs : List Input) (input : Input) (map : PresenceByKey) :
    receiveAll (inputs ++ [input]) map =
      ((input.received (receiveAll inputs map).1).1,
        (receiveAll inputs map).2 ++ (input.received (receiveAll inputs map).1).2) := by
  simp [receiveAll]

/-- After all events a subscriber that was told all of them has the map of the listener. -/
theorem EventsComplete.sameMap {inputs : List Input} (h : EventsComplete map inputs) :
    SameMap (replay map (receiveAll inputs map).2) (receiveAll inputs map).1 := by
  rcases List.eq_nil_or_concat inputs with rfl | ⟨before, input, rfl⟩
  · intro key
    rfl
  · rw [List.concat_eq_append] at h ⊢
    have htold := (h before input [] rfl).sameMap
    rw [receiveAll_concat, replay_append]
    exact htold

end PhoenixChannels.Presences
