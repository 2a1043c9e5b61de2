import PhoenixChannels.Presences.Listener

/-!
# What syncing does to one key

The loops of `sync` and `sync_diff` change one key in each round. So the presence under a key after
a payload, and the events about the key, follow from what the old map and the payload have there.
-/

namespace PhoenixChannels.Presences

variable {orders : Orders} {self joined left new : PresenceByKey} {key : String}

/-- The presence under a key and the events about it. -/
abbrev Seen := Option Presence × List Event

/-- What a listener has done about one key. -/
def Synced.seen (key : String) (synced : Synced) : Seen :=
  (synced.1.lookup key, synced.2.filter (fun e => e.key? = some key))

/-! ## `sync_diff` at one key -/

def joinSeen (key : String) (seen : Seen) (joined : Presence) : Seen :=
  let merged := PresenceByKey.merge joined seen.1
  (some merged, seen.2 ++ [.join { key, current := seen.1, joined := merged }])

def leaveSeen (key : String) (seen : Seen) (left : Presence) : Seen :=
  match seen.1 with
  | some current =>
      let current := current.without left.joinReferences
      (if current.metas.isEmpty then none else some current,
        seen.2 ++ [.leave { key, current, left }])
  | none => seen

/-- The rounds of a key in the two loops of `sync_diff`. -/
def diffSeen (key : String) (seen : Seen) (joined? left? : Option Presence) : Seen :=
  let seen := (joined?.map (joinSeen key seen)).getD seen
  (left?.map (leaveSeen key seen)).getD seen

theorem seen_joinKey_ne {synced : Synced} {key' : String} {presence : Presence} (h : key' ≠ key) :
    Synced.seen key (PresenceByKey.joinKey synced key' presence) = Synced.seen key synced := by
  simp [Synced.seen, PresenceByKey.joinKey, Event.key?, h, h.symm]

theorem seen_joinKey (synced : Synced) (presence : Presence) :
    Synced.seen key (PresenceByKey.joinKey synced key presence) =
      joinSeen key (Synced.seen key synced) presence := by
  simp [Synced.seen, PresenceByKey.joinKey, joinSeen, Event.key?]

theorem seen_leaveKey_ne {synced : Synced} {key' : String} {presence : Presence} (h : key' ≠ key) :
    Synced.seen key (PresenceByKey.leaveKey synced key' presence) = Synced.seen key synced := by
  unfold PresenceByKey.leaveKey
  cases synced.1.lookup key' with
  | none => rfl
  | some current =>
      have hevent : ¬ (Event.leave ⟨key', current.without presence.joinReferences, presence⟩).key? =
          some key := fun heq => h (Option.some.inj heq)
      simp only [Synced.seen, List.filter_append, Prod.mk.injEq]
      rw [List.filter_cons_of_neg (by simpa using hevent), List.filter_nil, List.append_nil]
      refine ⟨?_, rfl⟩
      split
      · rw [Dict.lookup_erase_eq, if_neg h.symm]
      · rw [Dict.lookup_insert_eq, if_neg h.symm]

theorem seen_leaveKey (synced : Synced) (presence : Presence) :
    Synced.seen key (PresenceByKey.leaveKey synced key presence) =
      leaveSeen key (Synced.seen key synced) presence := by
  unfold PresenceByKey.leaveKey
  cases hcurrent : synced.1.lookup key with
  | none => simp [leaveSeen, Synced.seen, hcurrent]
  | some current =>
      simp only [Synced.seen, leaveSeen, hcurrent, List.filter_append, Prod.mk.injEq]
      constructor
      · split
        · rw [Dict.lookup_erase_eq, if_pos rfl]
        · rw [Dict.lookup_insert_eq, if_pos rfl]
      · simp [Event.key?]

theorem seen_foldJoined (order : MapOrder) (synced : Synced) (joined : PresenceByKey) :
    Synced.seen key (joined.fold order PresenceByKey.joinKey synced) =
      ((joined.lookup key).map (joinSeen key (synced.seen key))).getD (synced.seen key) :=
  Dict.fold_view order synced joined (fun _ _ _ => seen_joinKey_ne) seen_joinKey

theorem seen_foldLeft (order : MapOrder) (synced : Synced) (left : PresenceByKey) :
    Synced.seen key (left.fold order PresenceByKey.leaveKey synced) =
      ((left.lookup key).map (leaveSeen key (synced.seen key))).getD (synced.seen key) :=
  Dict.fold_view order synced left (fun _ _ _ => seen_leaveKey_ne) seen_leaveKey

theorem seen_syncDiff :
    Synced.seen key (self.syncDiff orders joined left) =
      diffSeen key (self.lookup key, []) (joined.lookup key) (left.lookup key) := by
  rw [PresenceByKey.syncDiff, seen_foldLeft, seen_foldJoined]
  rfl

/-! ## `sync` at one key -/

/-- What `sync` takes as joined under a key. -/
def joinedAt (current? new? : Option Presence) : Option Presence :=
  match current?, new? with
  | some current, some new =>
      let joined := new.without current.joinReferences
      if joined.metas.isEmpty then none else some joined
  | none, new? => new?
  | some _, none => none

/-- What `sync` takes as left under a key. -/
def leftAt (current? new? : Option Presence) : Option Presence :=
  match current?, new? with
  | some current, some new =>
      let left := current.without new.joinReferences
      if left.metas.isEmpty then none else some left
  | current?, none => current?
  | none, some _ => none

/-- The diff that `sync` computes, at one key. -/
def Diff.at (key : String) (diff : Diff) : Option Presence × Option Presence :=
  (diff.joins.lookup key, diff.leaves.lookup key)

theorem diffKey_ne {diff : Diff} {key' : String} {presence : Presence} (h : key' ≠ key) :
    Diff.at key (PresenceByKey.diffKey self diff key' presence) = Diff.at key diff := by
  unfold PresenceByKey.diffKey
  cases self.lookup key' with
  | none => simp [Diff.at, h.symm]
  | some current =>
      simp only [Diff.at, Prod.mk.injEq]
      constructor <;> split <;> simp [h.symm]

/-- The round of a key among the new presences, after a start without joins. -/
def diffRound (current? : Option Presence) (diff : Option Presence × Option Presence)
    (presence : Presence) : Option Presence × Option Presence :=
  match current? with
  | some current =>
      ((joinedAt (some current) (some presence)).or diff.1,
        (leftAt (some current) (some presence)).or diff.2)
  | none => (some presence, diff.2)

theorem diffKey_eq (diff : Diff) (presence : Presence) :
    Diff.at key (PresenceByKey.diffKey self diff key presence) =
      diffRound (self.lookup key) (Diff.at key diff) presence := by
  unfold PresenceByKey.diffKey
  cases self.lookup key with
  | none => simp [Diff.at, diffRound]
  | some current =>
      simp only [Diff.at, diffRound, joinedAt, leftAt, Prod.mk.injEq]
      constructor <;> split <;> simp

theorem diff_at_fold (orders : Orders) (self new : PresenceByKey) (key : String) (diff : Diff) :
    Diff.at key (new.fold orders.new (PresenceByKey.diffKey self) diff) =
      ((new.lookup key).map (diffRound (self.lookup key) (diff.at key))).getD (diff.at key) :=
  Dict.fold_view orders.new diff new (fun _ _ _ => diffKey_ne) diffKey_eq

/-- `sync` leaves out the keys that the new presences lack, and applies the diff of the others. -/
theorem sync_eq (orders : Orders) (self new : PresenceByKey) :
    ∃ joined left : PresenceByKey, self.sync orders new =
        PresenceByKey.syncDiff orders (self.filterKeys (fun key => key ∈ new)) joined left ∧
      ∀ key, joined.lookup key = joinedAt (self.lookup key) (new.lookup key) ∧
        left.lookup key = leftAt (self.lookup key) (new.lookup key) := by
  refine ⟨_, _, rfl, fun key => ?_⟩
  have hdiff := diff_at_fold orders (self.filterKeys (fun key => key ∈ new)) new key
    ⟨∅, self.filterKeys (fun key => key ∉ new)⟩
  have hmem : key ∈ new ↔ (new.lookup key).isSome = true := AList.lookup_isSome.symm
  simp only [Diff.at, Dict.lookup_filterKeys, hmem, AList.lookup_empty] at hdiff
  obtain ⟨hjoins, hleaves⟩ := Prod.ext_iff.mp hdiff
  simp only at hjoins hleaves
  rw [hjoins, hleaves]
  cases hnew : new.lookup key with
  | none => cases self.lookup key <;> exact ⟨rfl, rfl⟩
  | some presence =>
      cases self.lookup key with
      | none => exact ⟨rfl, rfl⟩
      | some current => simp [diffRound]

/-- What `sync` does to a key: a key that the new presences lack is gone before its leave. -/
theorem seen_sync (orders : Orders) (self new : PresenceByKey) (key : String) :
    Synced.seen key (self.sync orders new) =
      diffSeen key (if key ∈ new then self.lookup key else none, [])
        (joinedAt (self.lookup key) (new.lookup key)) (leftAt (self.lookup key) (new.lookup key)) := by
  obtain ⟨joined, left, heq, hdiff⟩ := sync_eq orders self new
  rw [heq, seen_syncDiff, (hdiff key).1, (hdiff key).2, Dict.lookup_filterKeys]
  simp only [decide_eq_true_eq]

end PhoenixChannels.Presences
