import PhoenixChannels.Lib.Referenced
import PhoenixChannels.Presences.Lemmas.Replay

/-!
# The metas under a key

`sync` and `sync_diff` as updates of lists of metas that are told apart by their references.
-/

namespace PhoenixChannels.Presences

variable {orders : Orders} {self old joined left new map map' : PresenceByKey} {key : String}
variable {current? joined? left? new? : Option Presence}

/-! ## One key -/

/-- The metas of a presence; a key without a presence counts as one without metas. -/
def metasOf (presence? : Option Presence) : List Meta := (presence?.map Presence.metas).getD []

@[simp] theorem metasOf_none : metasOf none = [] := rfl

@[simp] theorem metasOf_some (presence : Presence) : metasOf (some presence) = presence.metas := rfl

/-- The metas of a key after a diff. -/
def updatedMetas (current? joined? left? : Option Presence) : List Meta :=
  Referenced.update Meta.joinReference (metasOf current?) (metasOf joined?) (metasOf left?)

theorem metas_without (presence other : Presence) :
    (presence.without other.joinReferences).metas =
      Referenced.minus Meta.joinReference presence.metas other.metas := rfl

theorem metas_merge (joined : Presence) (current? : Option Presence) :
    (PresenceByKey.merge joined current?).metas = joined.metas ++
      Referenced.minus Meta.joinReference (metasOf current?) joined.metas := by
  cases current? with
  | none => simp [PresenceByKey.merge]
  | some current => rfl

/-- The presence of a key between the two loops of `sync_diff`. -/
def joinedPresence (current? joined? : Option Presence) : Option Presence :=
  match joined? with
  | some joined => some (PresenceByKey.merge joined current?)
  | none => current?

theorem metasOf_joinedPresence (current? joined? : Option Presence) :
    metasOf (joinedPresence current? joined?) = metasOf joined? ++
      Referenced.minus Meta.joinReference (metasOf current?) (metasOf joined?) := by
  cases joined? with
  | none => simp [joinedPresence]
  | some joined => exact metas_merge joined current?

/-- The presence of a key after the loop over the left presences. -/
def keptPresence (merged? left? : Option Presence) : Option Presence :=
  match merged?, left? with
  | some merged, some left =>
      let kept := merged.without left.joinReferences
      if kept.metas.isEmpty then none else some kept
  | merged?, none => merged?
  | none, some _ => none

theorem diffSeen_fst (events : List Event) :
    (diffSeen key (current?, events) joined? left?).1 =
      keptPresence (joinedPresence current? joined?) left? := by
  cases joined? with
  | none => cases current? <;> cases left? <;> rfl
  | some joined => cases left? <;> rfl

theorem metasOf_keptPresence (merged? left? : Option Presence) :
    metasOf (keptPresence merged? left?) =
      Referenced.minus Meta.joinReference (metasOf merged?) (metasOf left?) := by
  cases merged? with
  | none => cases left? <;> rfl
  | some merged =>
      cases left? with
      | none => simp [keptPresence]
      | some left =>
          simp only [keptPresence, metas_without, List.isEmpty_iff, metasOf_some]
          split
          · rename_i hempty
            exact hempty.symm
          · rfl

theorem isSome_keptPresence (merged? left? : Option Presence) :
    (keptPresence merged? left?).isSome ↔ merged?.isSome ∧
      ¬ (left?.isSome ∧ Referenced.minus Meta.joinReference (metasOf merged?) (metasOf left?) = []) := by
  cases merged? with
  | none => cases left? <;> simp [keptPresence]
  | some merged =>
      cases left? with
      | none => simp [keptPresence]
      | some left =>
          simp only [keptPresence, metas_without, List.isEmpty_iff, metasOf_some]
          split <;> simp_all

theorem metasOf_diffSeen (events : List Event) :
    metasOf (diffSeen key (current?, events) joined? left?).1 =
      updatedMetas current? joined? left? := by
  rw [diffSeen_fst, metasOf_keptPresence, metasOf_joinedPresence]
  rfl

theorem isSome_diffSeen (events : List Event) :
    (diffSeen key (current?, events) joined? left?).1.isSome ↔
      (current?.isSome ∨ joined?.isSome) ∧
        ¬ (left?.isSome ∧ updatedMetas current? joined? left? = []) := by
  rw [diffSeen_fst, isSome_keptPresence, metasOf_joinedPresence]
  refine and_congr_left fun _ => ?_
  cases joined? <;> simp [joinedPresence]

/-! ## A map -/

def metasAt (map : PresenceByKey) (key : String) : List Meta := metasOf (map.lookup key)

def referencesAt (map : PresenceByKey) (key : String) : List String :=
  (metasAt map key).map Meta.joinReference

theorem lookup_eq_of_metas {presence? presence?' : Option Presence}
    (hsome : presence?.isSome ↔ presence?'.isSome) (hmetas : metasOf presence? = metasOf presence?') :
    presence? = presence?' := by
  cases presence? with
  | none =>
      cases presence?' with
      | none => rfl
      | some presence => simp at hsome
  | some presence =>
      cases presence?' with
      | none => simp at hsome
      | some presence' => exact congrArg (fun metas => some (Presence.mk metas)) hmetas

/-- A map has no more than the metas of its keys. -/
theorem sameMap_of_metas (hkeys : ∀ key, key ∈ map ↔ key ∈ map')
    (hmetas : ∀ key, metasAt map key = metasAt map' key) : SameMap map map' := by
  intro key
  refine lookup_eq_of_metas ?_ (hmetas key)
  rw [AList.lookup_isSome, AList.lookup_isSome]
  exact hkeys key

/-- The metas of a key after a diff: the joined ones, then those that they do not replace, without
those that leave. -/
def updatedAt (old joined left : PresenceByKey) (key : String) : List Meta :=
  updatedMetas (old.lookup key) (joined.lookup key) (left.lookup key)

/-- The map after a diff, key by key. -/
structure UpdatesKeys (old joined left map : PresenceByKey) : Prop where
  metas (key : String) : metasAt map key = updatedAt old joined left key
  keys (key : String) :
    key ∈ map ↔ (key ∈ old ∨ key ∈ joined) ∧ ¬ (key ∈ left ∧ updatedAt old joined left key = [])
  untouched (key : String) : key ∉ joined → key ∉ left → map.lookup key = old.lookup key

theorem updatesKeys_syncDiff (orders : Orders) (self joined left : PresenceByKey) :
    UpdatesKeys self joined left (self.syncDiff orders joined left).1 := by
  have hlookup : ∀ key, (self.syncDiff orders joined left).1.lookup key =
      (diffSeen key (self.lookup key, []) (joined.lookup key) (left.lookup key)).1 :=
    fun key => congrArg Prod.fst seen_syncDiff
  refine ⟨fun key => ?_, fun key => ?_, fun key hjoined hleft => ?_⟩
  · rw [metasAt, hlookup, metasOf_diffSeen]
    rfl
  · rw [← AList.lookup_isSome, hlookup, isSome_diffSeen]
    simp only [AList.lookup_isSome]
    rfl
  · rw [hlookup, AList.lookup_eq_none.mpr hjoined, AList.lookup_eq_none.mpr hleft]
    rfl

theorem UpdatesKeys.sameMap (h : UpdatesKeys old joined left map)
    (h' : UpdatesKeys old joined left map') : SameMap map map' := by
  have hmetas : ∀ key, metasAt map key = metasAt map' key := by
    intro key
    rw [h.metas, h'.metas]
  refine sameMap_of_metas (fun key => ?_) hmetas
  rw [h.keys, h'.keys]

theorem UpdatesKeys.again (h : UpdatesKeys old joined left map)
    (h' : UpdatesKeys map joined left map') : SameMap map' map := by
  have hupdated : ∀ key, updatedAt map joined left key = updatedAt old joined left key := by
    intro key
    rw [updatedAt, updatedMetas, ← metasAt, h.metas]
    exact Referenced.update_update
  refine sameMap_of_metas (fun key => ?_) (fun key => ?_)
  · rw [h'.keys, h.keys, hupdated]
    grind
  · rw [h'.metas, h.metas, hupdated]

/-! ## The events of a diff -/

/-- The join of a key: what the map had there, and what the key has after the joins. -/
def joinEvent (self : PresenceByKey) (e : Sigma fun _ : String => Presence) : Event :=
  .join {
    key := e.1
    current := self.lookup e.1
    joined := ⟨e.2.metas ++
      Referenced.minus Meta.joinReference (metasAt self e.1) e.2.metas⟩ }

/-- The leave of a key: what remains there. -/
def leaveEvent (self joined : PresenceByKey) (e : Sigma fun _ : String => Presence) : Event :=
  .leave {
    key := e.1
    current := ⟨Referenced.update Meta.joinReference (metasAt self e.1) (metasAt joined e.1)
      e.2.metas⟩
    left := e.2 }

/-- A join for each joined key, and then a leave for each left key that is there after the joins. -/
def EmitsDiff (old joined left : PresenceByKey) (events : List Event) : Prop :=
  ∃ joins leaves : List (Sigma fun _ : String => Presence),
    joins.Perm joined.entries ∧ leaves.Perm left.entries ∧
    events = joins.map (joinEvent old) ++
      (leaves.filter (fun e => e.1 ∈ old ∨ e.1 ∈ joined)).map (leaveEvent old joined)

theorem merge_eq (joined : Presence) (current? : Option Presence) :
    PresenceByKey.merge joined current? =
      ⟨joined.metas ++ Referenced.minus Meta.joinReference (metasOf current?) joined.metas⟩ :=
  congrArg Presence.mk (metas_merge joined current?)

theorem events_foldJoined (order : MapOrder) (self joined : PresenceByKey) :
    (joined.fold order PresenceByKey.joinKey ((self, []) : Synced)).2 =
      (order.arrange joined.entries).map (joinEvent self) := by
  have hlog : (joined.fold order PresenceByKey.joinKey ((self, []) : Synced)).2 =
      [] ++ (order.arrange joined.entries).flatMap fun e => [.join {
        key := e.1
        current := self.lookup e.1
        joined := PresenceByKey.merge e.2 (self.lookup e.1) }] :=
    Dict.fold_log Prod.snd (fun key (s : Synced) => s.1.lookup key)
      (fun key current presence =>
        [.join { key, current, joined := PresenceByKey.merge presence current }])
      order (self, []) joined
      (fun _ _ _ _ h => congrArg Prod.fst (seen_joinKey_ne h)) (fun _ _ _ => rfl)
  rw [hlog, List.nil_append, ← List.flatMap_pure_eq_map]
  refine List.flatMap_congr fun e _ => ?_
  rw [merge_eq]
  rfl

theorem events_foldLeft (order : MapOrder) (synced : Synced) (left : PresenceByKey) :
    (left.fold order PresenceByKey.leaveKey synced).2 = synced.2 ++
      (order.arrange left.entries).flatMap (fun e => (synced.1.lookup e.1).toList.map (fun current =>
        .leave { key := e.1, current := current.without e.2.joinReferences, left := e.2 })) := by
  refine Dict.fold_log Prod.snd (fun key (s : Synced) => s.1.lookup key)
    (fun key current left => current.toList.map fun current =>
      .leave { key, current := current.without left.joinReferences, left })
    order synced left (fun _ _ _ _ h => congrArg Prod.fst (seen_leaveKey_ne h)) ?_
  intro synced key presence
  simp only [PresenceByKey.leaveKey]
  cases synced.1.lookup key with
  | none => simp
  | some current => rfl

theorem flatMap_ite {ε ε' : Type} (p : ε → Prop) [DecidablePred p] (f : ε → ε') (es : List ε) :
    es.flatMap (fun e => if p e then [f e] else []) = (es.filter p).map f := by
  induction es with
  | nil => rfl
  | cons e es ih =>
      rw [List.flatMap_cons, ih, List.filter_cons]
      by_cases h : p e <;> simp [h]

theorem lookup_foldJoined (order : MapOrder) (self joined : PresenceByKey) (key : String) :
    (joined.fold order PresenceByKey.joinKey ((self, []) : Synced)).1.lookup key =
      joinedPresence (self.lookup key) (joined.lookup key) := by
  refine (congrArg Prod.fst (seen_foldJoined order (self, []) joined)).trans ?_
  cases joined.lookup key <;> rfl

theorem emitsDiff_syncDiff (orders : Orders) (self joined left : PresenceByKey) :
    EmitsDiff self joined left (self.syncDiff orders joined left).2 := by
  refine ⟨orders.joined.arrange joined.entries, orders.left.arrange left.entries,
    orders.joined.perm _, orders.left.perm _, ?_⟩
  rw [PresenceByKey.syncDiff, events_foldLeft, events_foldJoined, ← flatMap_ite]
  congr 1
  refine List.flatMap_congr fun e _ => ?_
  have hpresent : (joinedPresence (self.lookup e.1) (joined.lookup e.1)).isSome ↔
      e.1 ∈ self ∨ e.1 ∈ joined := by
    rw [← AList.lookup_isSome, ← AList.lookup_isSome]
    cases joined.lookup e.1 <;> simp [joinedPresence]
  have hmetas := metasOf_joinedPresence (self.lookup e.1) (joined.lookup e.1)
  rw [lookup_foldJoined]
  cases hmerged : joinedPresence (self.lookup e.1) (joined.lookup e.1) with
  | none =>
      rw [hmerged] at hpresent
      rw [if_neg (fun h => by simpa using hpresent.mpr h)]
      rfl
  | some merged =>
      rw [hmerged] at hpresent hmetas
      rw [if_pos (hpresent.mp rfl)]
      have hkept : merged.without e.2.joinReferences = ⟨Referenced.update Meta.joinReference
          (metasAt self e.1) (metasAt joined e.1) e.2.metas⟩ := by
        refine congrArg Presence.mk ((metas_without merged e.2).trans ?_)
        rw [metasOf_some] at hmetas
        rw [hmetas]
        rfl
      simp [leaveEvent, hkept]

/-! ## `sync` -/

theorem metasOf_joinedAt (current? new? : Option Presence) : metasOf (joinedAt current? new?) =
    Referenced.minus Meta.joinReference (metasOf new?) (metasOf current?) := by
  cases current? with
  | none => simp [joinedAt]
  | some current =>
      cases new? with
      | none => rfl
      | some new =>
          simp only [joinedAt, metas_without, List.isEmpty_iff, metasOf_some]
          split
          · rename_i hempty
            exact hempty.symm
          · rfl

theorem metasOf_leftAt (current? new? : Option Presence) : metasOf (leftAt current? new?) =
    Referenced.minus Meta.joinReference (metasOf current?) (metasOf new?) := by
  cases current? with
  | none => cases new? <;> rfl
  | some current =>
      cases new? with
      | none => simp [leftAt]
      | some new =>
          simp only [leftAt, metas_without, List.isEmpty_iff, metasOf_some]
          split
          · rename_i hempty
            exact hempty.symm
          · rfl

theorem lookup_sync (orders : Orders) (self new : PresenceByKey) (key : String) :
    (self.sync orders new).1.lookup key =
      (diffSeen key (if key ∈ new then self.lookup key else none, [])
        (joinedAt (self.lookup key) (new.lookup key)) (leftAt (self.lookup key) (new.lookup key))).1 :=
  congrArg Prod.fst (seen_sync orders self new key)

/-- The metas of a key after `sync`: those of `new` with a new reference, and those that were there and
are still in `new`. -/
theorem metasAt_sync (orders : Orders) (self new : PresenceByKey) (key : String) :
    metasAt (self.sync orders new).1 key =
      Referenced.minus Meta.joinReference (metasAt new key) (metasAt self key) ++
        Referenced.inter Meta.joinReference (metasAt self key) (metasAt new key) := by
  rw [metasAt, lookup_sync, metasOf_diffSeen, updatedMetas, metasOf_joinedAt, metasOf_leftAt]
  split
  · exact Referenced.update_minus
  · rename_i hnew
    have hnil : metasOf (new.lookup key) = [] := by rw [AList.lookup_eq_none.mpr hnew, metasOf_none]
    simp [metasAt, hnil, Referenced.update, Referenced.inter]

theorem mem_of_mem_sync (h : key ∈ (self.sync orders new).1) : key ∈ new := by
  by_contra hnew
  have hsome := AList.lookup_isSome.mpr h
  rw [lookup_sync, if_neg hnew, AList.lookup_eq_none.mpr hnew] at hsome
  cases hcurrent : self.lookup key <;> rw [hcurrent] at hsome <;> cases hsome

theorem referencesAt_sync (orders : Orders) (self new : PresenceByKey) (key reference : String) :
    reference ∈ referencesAt (self.sync orders new).1 key ↔ reference ∈ referencesAt new key := by
  rw [referencesAt, metasAt_sync]
  exact Referenced.mem_synced_refs

theorem eq_empty_of_lookup {map : PresenceByKey} (h : ∀ key, map.lookup key = none) : map = ∅ := by
  refine AList.ext (List.eq_nil_iff_forall_not_mem.mpr ?_)
  rintro ⟨key, presence⟩ hmem
  have hsome := AList.mem_lookup_iff.mpr hmem
  rw [h key] at hsome
  cases hsome

theorem filterKeys_eq_self {p : String → Bool} (h : ∀ key ∈ map, p key = true) :
    map.filterKeys p = map := by
  refine AList.ext (List.filter_eq_self.mpr ?_)
  rintro ⟨key, presence⟩ hmem
  exact h key (AList.lookup_isSome.mp (by rw [AList.mem_lookup_iff.mpr hmem]; rfl))

theorem fold_empty {σ : Type} (order : MapOrder) (body : σ → String → Presence → σ) (s : σ) :
    Dict.fold order body s ∅ = s := by
  have hnil : order.arrange (∅ : PresenceByKey).entries = [] := (order.perm []).eq_nil
  rw [Dict.fold, hnil]
  rfl

theorem joinedAt_metas_ne_nil {joined : Presence} (h : joinedAt current? new? = some joined)
    (hnew : ∀ presence, new? = some presence → presence.metas ≠ []) : joined.metas ≠ [] := by
  cases current? with
  | none => exact hnew joined h
  | some current =>
      cases new? with
      | none => cases h
      | some new =>
          simp only [joinedAt] at h
          split at h
          · cases h
          · rename_i hne
            obtain rfl := Option.some.inj h
            simpa using hne

theorem leftAt_metas_ne_nil {left : Presence} (h : leftAt current? new? = some left)
    (hnew : new?.isSome) : left.metas ≠ [] := by
  obtain ⟨new, rfl⟩ := Option.isSome_iff_exists.mp hnew
  cases current? with
  | none => cases h
  | some current =>
      simp only [leftAt] at h
      split at h
      · cases h
      · rename_i hne
        obtain rfl := Option.some.inj h
        simpa using hne

theorem leftAt_isSome (h : (leftAt current? new?).isSome) : current?.isSome := by
  cases current? with
  | none => cases new? <;> cases h
  | some current => rfl

/-- `sync` does nothing where the references are those of the new presences already. -/
theorem sync_of_same_references (orders : Orders) (hkeys : ∀ key ∈ map, key ∈ new)
    (hreferences : ∀ key r, r ∈ referencesAt map key ↔ r ∈ referencesAt new key)
    (hnew : ∀ key presence, new.lookup key = some presence → presence.metas ≠ []) :
    map.sync orders new = (map, []) := by
  obtain ⟨joined, left, heq, hdiff⟩ := sync_eq orders map new
  have hjoined : joined = ∅ := by
    refine eq_empty_of_lookup fun key => ?_
    rw [(hdiff key).1]
    by_contra hne
    obtain ⟨presence, hsome⟩ := Option.ne_none_iff_exists'.mp hne
    refine joinedAt_metas_ne_nil hsome (hnew key) ?_
    rw [← metasOf_some, ← hsome, metasOf_joinedAt]
    exact Referenced.minus_eq_nil.mpr fun r hr => (hreferences key r).mpr hr
  have hleft : left = ∅ := by
    refine eq_empty_of_lookup fun key => ?_
    rw [(hdiff key).2]
    by_contra hne
    obtain ⟨presence, hsome⟩ := Option.ne_none_iff_exists'.mp hne
    have hmem : key ∈ map := AList.lookup_isSome.mp (leftAt_isSome (by rw [hsome]; rfl))
    refine leftAt_metas_ne_nil hsome (AList.lookup_isSome.mpr (hkeys key hmem)) ?_
    rw [← metasOf_some, ← hsome, metasOf_leftAt]
    exact Referenced.minus_eq_nil.mpr fun r hr => (hreferences key r).mp hr
  have hself : Dict.filterKeys (fun key => key ∈ new) map = map :=
    filterKeys_eq_self fun key hkey => by simpa using hkeys key hkey
  rw [heq, hjoined, hleft, hself, PresenceByKey.syncDiff, fold_empty, fold_empty]

/-! ## What the theorems say -/

/-- A map that `sync` has made of `old` has the references of `new`; a meta whose reference was there
keeps its content, and the others have that of `new`. -/
structure Converges (old new map : PresenceByKey) : Prop where
  references (key reference : String) :
    reference ∈ referencesAt map key ↔ reference ∈ referencesAt new key
  keys (key : String) : key ∈ map → key ∈ new
  contents (key reference : String) : reference ∈ referencesAt new key →
    (metasAt map key).filter (fun m => m.joinReference = reference) =
      if reference ∈ referencesAt old key then
        (metasAt old key).filter (fun m => m.joinReference = reference)
      else (metasAt new key).filter (fun m => m.joinReference = reference)
  again (orders : Orders) :
    (∀ key presence, new.lookup key = some presence → presence.metas ≠ []) →
      map.sync orders new = (map, [])

/-- The map and the events that `sync_diff` makes of `old`. -/
structure AppliesDiff (old joined left : PresenceByKey) (synced : Synced) : Prop where
  updates : UpdatesKeys old joined left synced.1
  events : EmitsDiff old joined left synced.2
  anyOrder (orders : Orders) : SameMap (old.syncDiff orders joined left).1 synced.1
  again (orders : Orders) : SameMap (synced.1.syncDiff orders joined left).1 synced.1

end PhoenixChannels.Presences
