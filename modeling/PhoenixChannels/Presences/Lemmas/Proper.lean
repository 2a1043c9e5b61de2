import Mathlib.Data.List.Induction
import PhoenixChannels.Presences.Lemmas.Metas
import PhoenixChannels.Presences.World

/-!
# Proper presences

A presence stands for at least one connection, and for none of them twice.
-/

namespace PhoenixChannels

namespace Presences

structure Presence.Proper (presence : Presence) : Prop where
  nonempty : presence.metas ≠ []
  distinct : presence.joinReferences.Nodup

instance (presence : Presence) : Decidable presence.Proper :=
  decidable_of_iff (presence.metas.isEmpty = false ∧ presence.joinReferences.Nodup)
    ⟨fun h => ⟨by simpa using h.1, h.2⟩, fun h => ⟨by simpa using h.nonempty, h.distinct⟩⟩

def PresenceByKey.Proper (map : PresenceByKey) : Prop := ∀ presence ∈ Dict.values map, presence.Proper

instance (map : PresenceByKey) : Decidable map.Proper :=
  inferInstanceAs (Decidable (∀ presence ∈ Dict.values map, presence.Proper))

end Presences

/-- The presences that a listener makes of the event, if it can read it. -/
def EventPayload.newPresences (e : EventPayload) : Presences.PresenceByKey :=
  match e.event with
  | .user "presence_state" =>
      match Presences.PresenceByKey.ofPayload e.payload with
      | .ok new => new
      | .error _ => ∅
  | .user "presence_diff" =>
      match Presences.Diff.ofPayload e.payload with
      | .ok diff => diff.joins
      | .error _ => ∅
  | _ => ∅

namespace Presences

variable {orders : Orders} {self joined left new map : PresenceByKey} {key : String}
variable {current? joined? new? : Option Presence} {e : EventPayload}

theorem proper_iff : map.Proper ↔
    ∀ key presence, map.lookup key = some presence → presence.Proper := by
  simp only [PresenceByKey.Proper, Dict.mem_values]
  exact ⟨fun h key presence hp => h presence ⟨key, hp⟩, fun h presence ⟨key, hp⟩ => h key presence hp⟩

/-! ## Syncing -/

theorem nodup_metasOf {presence? : Option Presence}
    (h : ∀ presence, presence? = some presence → presence.Proper) :
    ((metasOf presence?).map Meta.joinReference).Nodup := by
  cases presence? with
  | none => exact .nil
  | some presence => exact (h presence rfl).distinct

theorem metasAt_ne_nil (h : map.Proper) (hkey : key ∈ map) : metasAt map key ≠ [] := by
  obtain ⟨presence, hp⟩ := Option.isSome_iff_exists.mp (AList.lookup_isSome.mpr hkey)
  rw [metasAt, hp]
  exact (proper_iff.mp h key presence hp).nonempty

theorem UpdatesKeys.proper (h : UpdatesKeys self joined left map) (hself : self.Proper)
    (hjoined : joined.Proper) : map.Proper := by
  refine proper_iff.mpr fun key presence hp => ?_
  have hmetas : presence.metas = updatedAt self joined left key := by
    rw [← h.metas, metasAt, hp, metasOf_some]
  constructor
  · obtain ⟨hmem, hkept⟩ := (h.keys key).mp (AList.lookup_isSome.mp (by rw [hp]; rfl))
    rw [hmetas]
    intro hnil
    -- without a leave, the key has all of what it had and what joined
    have hleft : left.lookup key = none := AList.lookup_eq_none.mpr fun hleft => hkept ⟨hleft, hnil⟩
    rw [updatedAt, updatedMetas, hleft, metasOf_none, Referenced.update, Referenced.minus_nil,
      List.append_eq_nil_iff] at hnil
    obtain ⟨hjoinedNil, hselfNil⟩ := hnil
    rw [hjoinedNil, Referenced.minus_nil] at hselfNil
    rcases hmem with hmem | hmem
    · exact metasAt_ne_nil hself hmem hselfNil
    · exact metasAt_ne_nil hjoined hmem hjoinedNil
  · rw [Presence.joinReferences, hmetas]
    exact Referenced.nodup_update (nodup_metasOf (proper_iff.mp hself key))
      (nodup_metasOf (proper_iff.mp hjoined key))

theorem proper_joinedAt (hnew : ∀ presence, new? = some presence → presence.Proper)
    {presence : Presence} (h : joinedAt current? new? = some presence) : presence.Proper := by
  refine ⟨joinedAt_metas_ne_nil h fun presence hp => (hnew presence hp).nonempty, ?_⟩
  have hmetas := metasOf_joinedAt current? new?
  rw [h, metasOf_some] at hmetas
  rw [Presence.joinReferences, hmetas]
  exact (nodup_metasOf hnew).sublist (List.filter_sublist.map _)

theorem proper_sync (orders : Orders) (hself : self.Proper) (hnew : new.Proper) :
    PresenceByKey.Proper (self.sync orders new).1 := by
  obtain ⟨joined, left, heq, hdiff⟩ := sync_eq orders self new
  rw [heq]
  refine (updatesKeys_syncDiff orders _ joined left).proper ?_ ?_
  · refine proper_iff.mpr fun key presence hp => ?_
    rw [Dict.lookup_filterKeys] at hp
    split at hp
    · exact proper_iff.mp hself key presence hp
    · cases hp
  · refine proper_iff.mpr fun key presence hp => ?_
    rw [(hdiff key).1] at hp
    exact proper_joinedAt (proper_iff.mp hnew key) hp

/-! ## Payloads -/

/-- What is proper stays proper; a payload that cannot be read changes nothing. -/
theorem proper_received (hmap : map.Proper) (he : e.newPresences.Proper) :
    PresenceByKey.Proper (received orders map e).1 := by
  obtain ⟨event, payload⟩ := e
  unfold EventPayload.newPresences at he
  unfold received
  simp only at he ⊢
  split
  · simp only [presenceState] at he ⊢
    cases hnew : PresenceByKey.ofPayload payload with
    | error error => exact hmap
    | ok new =>
        simp only [hnew] at he
        exact proper_sync orders hmap he
  · simp only [presenceDiff] at he ⊢
    cases hdiff : Diff.ofPayload payload with
    | error error => exact hmap
    | ok diff =>
        simp only [hdiff] at he
        exact (updatesKeys_syncDiff orders map diff.joins diff.leaves).proper hmap he
  · exact hmap

theorem proper_empty : PresenceByKey.Proper ∅ := by
  intro presence h
  cases h

theorem proper_receiveAll (inputs : List Input)
    (h : ∀ input ∈ inputs, input.eventPayload.newPresences.Proper) :
    PresenceByKey.Proper (receiveAll inputs ∅).1 := by
  induction inputs using List.reverseRecOn with
  | nil => exact proper_empty
  | append_singleton inputs input ih =>
      rw [receiveAll_concat]
      refine proper_received (ih fun input hinput => h input (List.mem_append_left _ hinput)) ?_
      exact h input (List.mem_append_right _ (List.mem_singleton.mpr rfl))

/-! ## The listener -/

namespace Client

variable {strategy : Option (Nat → Duration)} {ls : List Label} {t t' : Client}

/-- The event that the listener takes in this step is proper. -/
def receivesProper (t : Client) : Label → Bool
  | .receive _ =>
      match t.presences.task with
      | .listening next =>
          match (t.eventPayloads.recv next).1 with
          | .message e => decide e.newPresences.Proper
          | _ => true
      | _ => true
  | _ => true

/-- The map of the listener is proper, and all that it has listed. -/
structure ListsProper (t : Client) : Prop where
  map : t.presences.presenceByKey.Proper
  listed : ∀ presences ∈ t.presences.listed, ∀ presence ∈ presences, presence.Proper

theorem ListsProper.step (h : t.ListsProper) {label : Label}
    (hproper : t.receivesProper label = true) (hstep : Client.step strategy t label = some t') :
    t'.ListsProper := by
  cases label with
  | system label =>
      simp only [Client.step, Option.map_eq_some_iff] at hstep
      obtain ⟨s', _, rfl⟩ := hstep
      exact ⟨h.map, h.listed⟩
  | start | shutdown =>
      simp only [Client.step] at hstep
      split at hstep <;> cases hstep
      exact ⟨h.map, h.listed⟩
  | list =>
      simp only [Client.step] at hstep
      split at hstep <;> cases hstep
      refine ⟨h.map, fun presences hmem => ?_⟩
      rcases List.mem_append.mp hmem with hmem | hmem
      · exact h.listed presences hmem
      · obtain rfl := List.mem_singleton.mp hmem
        exact h.map
  | receive orders =>
      simp only [Client.step, Client.receive] at hstep
      cases htask : t.presences.task with
      | spawned | ended => simp [htask] at hstep
      | listening next =>
          simp only [htask] at hstep
          cases hrecv : t.eventPayloads.recv next with
          | mk received next' =>
              simp only [hrecv] at hstep
              cases received with
              | empty => cases hstep
              | lagged missed =>
                  cases hstep
                  exact ⟨h.map, h.listed⟩
              | message e =>
                  cases hstep
                  refine ⟨proper_received h.map ?_, h.listed⟩
                  simpa [receivesProper, htask, hrecv] using hproper

theorem listsProper_of_run {s₀ : System} {channel : JoinReference}
    (h : Machine.Run (machine strategy) (fun t l => t.receivesProper l = true)
      (spawn s₀ channel) ls t) : t.ListsProper := by
  refine h.invariant (I := ListsProper) ?_ fun _ _ _ ih hok hstep => ih.step hok hstep
  exact ⟨proper_empty, fun presences hmem => by cases hmem⟩

end Client

end Presences

end PhoenixChannels
