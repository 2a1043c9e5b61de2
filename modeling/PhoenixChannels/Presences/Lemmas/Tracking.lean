import PhoenixChannels.Presences.Lemmas.Replay
import PhoenixChannels.Presences.World
import PhoenixChannels.System.Lemmas.Runs

/-!
# Following the events of the channel

What the map of a presence listener should be, which events the listener never reads, and what it
has made of those that it has read.
-/

namespace PhoenixChannels

/-- The listener changes its map on an event of this kind. -/
def EventPayload.syncs (eventPayload : EventPayload) : Bool :=
  match eventPayload.event with
  | .user "presence_state" => (Presences.PresenceByKey.ofPayload eventPayload.payload).isOk
  | .user "presence_diff" => (Presences.Diff.ofPayload eventPayload.payload).isOk
  | _ => false

namespace Presences

variable {orders orders' : Orders} {map map' : PresenceByKey} {e : EventPayload}

theorem isOk_eq_false {ε α : Type} {r : Except ε α} (h : r.isOk = false) :
    ∃ error, r = .error error := by
  cases r with
  | ok a => cases h
  | error error => exact ⟨error, rfl⟩

theorem received_of_not_syncs (h : e.syncs = false) : received orders map e = (map, []) := by
  obtain ⟨event, payload⟩ := e
  unfold EventPayload.syncs at h
  unfold received
  simp only at h ⊢
  split
  · obtain ⟨error, herror⟩ := isOk_eq_false h
    simp [presenceState, herror]
  · obtain ⟨error, herror⟩ := isOk_eq_false h
    simp [presenceDiff, herror]
  · rfl

/-- The map after an event does not depend on the orders of its loops. -/
theorem sameMap_received (h : SameMap map map') :
    SameMap (received orders map e).1 (received orders' map' e).1 := by
  intro key
  unfold received
  split
  · unfold presenceState
    split
    · rename_i new _
      have hseen : Synced.seen key (map.sync orders new) = Synced.seen key (map'.sync orders' new) := by
        rw [seen_sync, seen_sync, h key]
      exact congrArg Prod.fst hseen
    · exact h key
  · unfold presenceDiff
    split
    · have hseen : ∀ joined left, Synced.seen key (map.syncDiff orders joined left) =
          Synced.seen key (map'.syncDiff orders' joined left) := by
        intro joined left
        rw [seen_syncDiff, seen_syncDiff, h key]
      exact congrArg Prod.fst (hseen _ _)
    · exact h key
  · exact h key

/-! ## All events -/

/-- The orders in which the maps are written. -/
def Orders.written : Orders := ⟨.written, .written, .written⟩

/-- All events in a row, from an empty map. -/
def applyAll (eventPayloads : List EventPayload) : PresenceByKey :=
  eventPayloads.foldl (fun map e => (received .written map e).1) ∅

theorem applyAll_concat (eventPayloads : List EventPayload) (e : EventPayload) :
    applyAll (eventPayloads ++ [e]) = (received .written (applyAll eventPayloads) e).1 := by
  simp [applyAll]

theorem applyAll_skip {eventPayloads skipped : List EventPayload}
    (h : skipped.all (fun e => !e.syncs) = true) :
    applyAll (eventPayloads ++ skipped) = applyAll eventPayloads := by
  induction skipped generalizing eventPayloads with
  | nil => rw [List.append_nil]
  | cons e skipped ih =>
      simp only [List.all_cons, Bool.and_eq_true, Bool.not_eq_eq_eq_not, Bool.not_true] at h
      have hrest := @ih (eventPayloads ++ [e]) h.2
      rw [List.append_assoc, List.singleton_append] at hrest
      rw [hrest, applyAll_concat, received_of_not_syncs h.1]

/-! ## The listener -/

namespace Client

variable {strategy : Option (Nat → Duration)} {t t' : Client}

/-- The events since `Channel::presences` returned that the listener may still read. -/
def unread (t : Client) : List EventPayload :=
  match t.presences.task with
  | .spawned => t.eventPayloads.sent.drop t.presences.since
  | .listening next => t.eventPayloads.sent.drop next
  | .ended => []

def isListening (t : Client) : Bool :=
  match t.presences.task with
  | .ended => false
  | _ => true

/-- A listener that has nothing left to read has the map that all events since
`Channel::presences` returned make. -/
def Tracks (t : Client) : Prop :=
  t.isListening = true → t.unread = [] →
    SameMap t.presences.presenceByKey (applyAll (t.eventPayloads.sent.drop t.presences.since))

/-- The events that a step puts out of the reach of the listener. -/
def skipped (t : Client) : Label → List EventPayload
  | .start => t.unread
  | .receive _ =>
      match t.presences.task with
      | .listening next =>
          match t.eventPayloads.recv next with
          | (.lagged missed, _) => (t.eventPayloads.sent.drop next).take missed
          | _ => []
      | _ => []
  | _ => []

/-- None of them would change the map. -/
def skipsNoPresences (t : Client) (label : Label) : Bool :=
  (t.skipped label).all (fun e => !e.syncs)

/-- The position up to which the listener has read. -/
def position (t : Client) : Nat :=
  match t.presences.task with
  | .listening next => next
  | _ => t.presences.since

/-- The listener has made of the events up to its position what they make. -/
structure Followed (t : Client) : Prop where
  since_le : t.presences.since ≤ t.position
  position_le : t.position ≤ t.eventPayloads.sent.length
  sameMap : SameMap t.presences.presenceByKey
    (applyAll ((t.eventPayloads.sent.take t.position).drop t.presences.since))

theorem drop_take_add {α : Type} {l : List α} {since position count : Nat}
    (hsince : since ≤ position) (hposition : position ≤ l.length) :
    (l.take (position + count)).drop since =
      (l.take position).drop since ++ (l.drop position).take count := by
  have hlength : since ≤ (l.take position).length := by
    rw [List.length_take, Nat.min_eq_left hposition]
    exact hsince
  rw [List.take_add, List.drop_append_of_le_length hlength]

theorem Followed.tracks (h : t.isListening = true → t.Followed) : t.Tracks := by
  intro hlistening hunread
  obtain ⟨_, _, hsame⟩ := h hlistening
  have hall : t.eventPayloads.sent.take t.position = t.eventPayloads.sent := by
    apply List.take_of_length_le
    unfold unread at hunread
    unfold position
    unfold isListening at hlistening
    cases htask : t.presences.task with
    | spawned | listening => simpa [htask] using hunread
    | ended => simp [htask] at hlistening
  rwa [hall] at hsame

/-! ## Steps -/

theorem effects_grow {s s' : System} {ls : List System.Label} {c : JoinReference}
    {label : System.Label} (h : Machine.Run (System.machine strategy) Machine.Free System.init ls s)
    (hstep : System.step strategy s label = some s') :
    (s.eventPayloads c).sent <+: (s'.eventPayloads c).sent := by
  unfold System.eventPayloads
  cases hw : s.channels.lookup c with
  | none => exact List.nil_prefix
  | some w =>
      obtain ⟨w', hw', hnext⟩ := (System.step_cases hstep).channel_next h hw
      simp only [hw', Option.map_some, Option.getD_some]
      rcases hnext with rfl | hnext
      · exact List.prefix_refl _
      · exact hnext.effects_grow.filterMap _

theorem Followed.skip {presences : World} (skipped : Nat) (h : t.Followed)
    (hchannel : presences.channel = t.presences.channel)
    (hsince : presences.since = t.presences.since)
    (hmap : presences.presenceByKey = t.presences.presenceByKey)
    (htask : presences.task = .listening (t.position + skipped))
    (hle : t.position + skipped ≤ t.eventPayloads.sent.length)
    (hskips : ((t.eventPayloads.sent.drop t.position).take skipped).all (fun e => !e.syncs) = true) :
    (t.setPresences presences).Followed := by
  have hqueue : (t.setPresences presences).eventPayloads = t.eventPayloads := by
    simp [eventPayloads, setPresences, hchannel]
  have hposition : (t.setPresences presences).position = t.position + skipped := by
    simp [position, setPresences, htask]
  constructor
  · rw [hposition]
    exact hsince ▸ Nat.le_trans h.since_le (Nat.le_add_right _ _)
  · rw [hposition, hqueue]
    exact hle
  · rw [hposition, hqueue]
    simp only [setPresences, hsince, hmap]
    rw [drop_take_add h.since_le h.position_le, applyAll_skip hskips]
    exact h.sameMap

theorem Followed.system {s' : System} (h : t.Followed)
    (hbegins : t.eventPayloads.sent <+: (s'.eventPayloads t.presences.channel).sent) :
    Followed { t with system := s' } := by
  have htake : (s'.eventPayloads t.presences.channel).sent.take t.position =
      t.eventPayloads.sent.take t.position := by
    obtain ⟨more, hmore⟩ := hbegins
    rw [← hmore, List.take_append_of_le_length h.position_le]
  refine ⟨h.since_le, Nat.le_trans h.position_le hbegins.length_le, ?_⟩
  have hsame := h.sameMap
  rw [← htake] at hsame
  exact hsame

theorem Followed.start (h : t.Followed) (htask : t.presences.task = .spawned)
    (hskips : t.skipsNoPresences .start = true) :
    (t.setTask (.listening t.eventPayloads.subscribe)).Followed := by
  have hposition : t.position = t.presences.since := by simp [position, htask]
  have hlength : t.position + (t.eventPayloads.sent.length - t.position) =
      t.eventPayloads.sent.length := Nat.add_sub_of_le h.position_le
  refine .skip (t.eventPayloads.sent.length - t.position) h rfl rfl rfl ?_ (Nat.le_of_eq hlength) ?_
  · rw [hlength]
    rfl
  · rw [← List.length_drop, List.take_length, hposition]
    simpa [skipsNoPresences, skipped, unread, htask] using hskips

theorem Followed.receive {orders : Orders} (h : t.Followed)
    (hstep : t.receive orders = some t') (hskips : t.skipsNoPresences (.receive orders) = true) :
    t'.Followed := by
  unfold Client.receive at hstep
  cases htask : t.presences.task with
  | spawned | ended => simp [htask] at hstep
  | listening next =>
      have hposition : t.position = next := by simp [position, htask]
      simp only [htask] at hstep
      cases hrecv : t.eventPayloads.recv next with
      | mk received next' =>
          cases received with
          | empty => simp [hrecv] at hstep
          | lagged missed =>
              simp only [hrecv, Option.some.injEq] at hstep
              subst hstep
              obtain ⟨rfl, hle⟩ := BroadcastQueue.recv_lagged_eq hrecv
              refine .skip missed h rfl rfl rfl (hposition ▸ rfl) (hposition ▸ hle) ?_
              simpa [skipsNoPresences, skipped, htask, hrecv, hposition] using hskips
          | message e =>
              simp only [hrecv, Option.some.injEq] at hstep
              subst hstep
              obtain ⟨hget, rfl⟩ := BroadcastQueue.recv_message_eq hrecv
              obtain ⟨hlt, _⟩ := List.getElem?_eq_some_iff.mp hget
              have hsince := hposition ▸ h.since_le
              refine ⟨Nat.le_succ_of_le hsince, hlt, ?_⟩
              have hnext : ((t.eventPayloads.sent.drop next).take 1) = [e] := by
                rw [List.take_one, List.head?_drop, hget]
                rfl
              have hsame := h.sameMap
              rw [hposition] at hsame
              show SameMap (received orders t.presences.presenceByKey e).1
                (applyAll ((t.eventPayloads.sent.take (next + 1)).drop t.presences.since))
              rw [drop_take_add hsince (Nat.le_of_lt hlt), hnext, applyAll_concat]
              exact sameMap_received hsame

theorem Followed.step {ls : List System.Label}
    (hsystem : Machine.Run (System.machine strategy) Machine.Free System.init ls t.system)
    (h : t.isListening = true → t.Followed) {label : Label}
    (hskips : t.skipsNoPresences label = true)
    (hstep : Client.step strategy t label = some t') :
    t'.isListening = true → t'.Followed := by
  intro hlistening
  cases label with
  | system label =>
      simp only [Client.step, Option.map_eq_some_iff] at hstep
      obtain ⟨s', hs', rfl⟩ := hstep
      exact (h hlistening).system (effects_grow hsystem hs')
  | start =>
      simp only [Client.step] at hstep
      split at hstep
      · rename_i htask
        cases hstep
        exact (h (by simp [isListening, htask])).start htask hskips
      · cases hstep
  | receive orders =>
      refine (h ?_).receive hstep hskips
      cases htask : t.presences.task with
      | ended => simp [Client.step, Client.receive, htask] at hstep
      | spawned | listening => simp [isListening, htask]
  | list =>
      simp only [Client.step] at hstep
      split at hstep
      · rename_i next htask
        cases hstep
        obtain ⟨hsince, hle, hsame⟩ := h (by simp [isListening, htask])
        exact ⟨hsince, hle, hsame⟩
      · cases hstep
  | shutdown =>
      simp only [Client.step] at hstep
      split at hstep
      · cases hstep
        cases hlistening
      · cases hstep

theorem followed_spawn (system : System) (channel : JoinReference) :
    (Client.spawn system channel).Followed where
  since_le := Nat.le_refl _
  position_le := Nat.le_refl _
  sameMap := by
    have hnil : ((Client.spawn system channel).eventPayloads.sent.take
        (Client.spawn system channel).position).drop
          (Client.spawn system channel).presences.since = [] :=
      List.drop_of_length_le (List.length_take_le _ _)
    rw [hnil]
    exact fun _ => rfl

theorem system_of_run {ls₀ : List System.Label} {ls : List Label} {s₀ : System}
    {ok : Client → Label → Prop} {channel : JoinReference}
    (h₀ : Machine.Run (System.machine strategy) Machine.Free System.init ls₀ s₀)
    (h : Machine.Run (machine strategy) ok (spawn s₀ channel) ls t) :
    ∃ ks, Machine.Run (System.machine strategy) Machine.Free System.init ks t.system := by
  have hsystem : ∃ ks, Machine.Run (System.machine strategy) Machine.Free s₀ ks t.system := by
    refine h.project Client.system ?_
    intro t label t' _ hstep
    cases label with
    | system label =>
        simp only [machine, Client.step, Option.map_eq_some_iff] at hstep
        obtain ⟨s', hs', rfl⟩ := hstep
        exact .inr ⟨label, trivial, hs'⟩
    | start | list | shutdown =>
        simp only [machine, Client.step] at hstep
        split at hstep <;> cases hstep
        exact .inl rfl
    | receive orders =>
        simp only [machine, Client.step, Client.receive] at hstep
        split at hstep
        · split at hstep <;> cases hstep <;> exact .inl rfl
        · cases hstep
  obtain ⟨ks, hks⟩ := hsystem
  exact ⟨ls₀ ++ ks, h₀.trans hks⟩

theorem followed_of_run {ls₀ : List System.Label} {ls : List Label} {s₀ : System}
    {channel : JoinReference}
    (h₀ : Machine.Run (System.machine strategy) Machine.Free System.init ls₀ s₀)
    (h : Machine.Run (machine strategy) (fun t l => t.skipsNoPresences l = true)
      (spawn s₀ channel) ls t) : t.isListening = true → t.Followed := by
  refine h.invariant_of_run (I := fun t => t.isListening = true → t.Followed)
    (fun _ => followed_spawn s₀ channel) ?_
  intro ls t label t' hrun ih hok hstep
  obtain ⟨ks, hks⟩ := system_of_run h₀ hrun
  exact Followed.step hks ih hok hstep

end Client

end Presences

end PhoenixChannels
