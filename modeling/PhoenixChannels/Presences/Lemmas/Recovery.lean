import PhoenixChannels.Presences.Lemmas.Metas
import PhoenixChannels.Presences.Lemmas.Tracking

/-!
# What a presence state repairs

A presence state replaces the connections under every key. What the listener had there before does
not matter then, and the diffs that follow do not bring it back.
-/

namespace PhoenixChannels

/-- The listener syncs its map with a presence state. -/
def EventPayload.replaces (eventPayload : EventPayload) : Bool :=
  match eventPayload.event with
  | .user "presence_state" => (Presences.PresenceByKey.ofPayload eventPayload.payload).isOk
  | _ => false

namespace Presences

variable {orders orders' : Orders} {map map' : PresenceByKey} {e : EventPayload}

/-- Under each key the same connections, whatever their metas hold besides. -/
def SameReferences (map map' : PresenceByKey) : Prop :=
  ∀ key reference, reference ∈ referencesAt map key ↔ reference ∈ referencesAt map' key

theorem isOk_eq_true {ε α : Type} {r : Except ε α} (h : r.isOk = true) : ∃ a, r = .ok a := by
  cases r with
  | ok a => exact ⟨a, rfl⟩
  | error error => cases h

theorem mem_referencesAt_syncDiff {self joined left : PresenceByKey} {key reference : String} :
    reference ∈ referencesAt (self.syncDiff orders joined left).1 key ↔
      (reference ∈ referencesAt self key ∨ reference ∈ referencesAt joined key) ∧
        reference ∉ referencesAt left key := by
  rw [referencesAt, (updatesKeys_syncDiff orders self joined left).metas]
  exact Referenced.mem_update_refs

/-- After a presence state the connections are those of the state. -/
theorem sameReferences_of_replaces (h : e.replaces = true) :
    SameReferences (received orders map e).1 (received orders' map' e).1 := by
  unfold EventPayload.replaces at h
  unfold received
  split at h
  · rename_i hevent
    obtain ⟨new, hnew⟩ := isOk_eq_true h
    simp only [hevent, presenceState, hnew]
    intro key reference
    rw [referencesAt_sync, referencesAt_sync]
  · cases h

theorem sameReferences_received (h : SameReferences map map') :
    SameReferences (received orders map e).1 (received orders' map' e).1 := by
  cases hreplaces : e.replaces with
  | true => exact sameReferences_of_replaces hreplaces
  | false =>
      unfold EventPayload.replaces at hreplaces
      unfold received
      split
      · rename_i hevent
        simp only [hevent] at hreplaces
        obtain ⟨error, herror⟩ := isOk_eq_false hreplaces
        simpa only [presenceState, herror] using h
      · unfold presenceDiff
        split
        · intro key reference
          simp only [mem_referencesAt_syncDiff, h key reference]
        · exact h
      · exact h

/-! ## The listener -/

namespace Client

variable {strategy : Option (Nat → Duration)} {t t' : Client} {label : Label}

/-- The events of the channel up to the position of the listener, those before it was spawned as
well. -/
def passed (t : Client) : List EventPayload := t.eventPayloads.sent.take t.position

/-- The event that a step reads. -/
def read? (t : Client) : Label → Option EventPayload
  | .receive _ =>
      match t.presences.task with
      | .listening next =>
          match t.eventPayloads.recv next with
          | (.message eventPayload, _) => some eventPayload
          | _ => none
      | _ => none
  | _ => none

/-- The listener has the connections that a listener would have that has read every event of the
channel. -/
def Recovered (t : Client) : Prop :=
  t.isListening = true → SameReferences t.presences.presenceByKey (applyAll t.passed)

/-- The position of a listener and its map, before and after a step. -/
inductive Passes (t : Client) (label : Label) (t' : Client) : Prop
  | skipped : t.read? label = none → t'.passed = t.passed ++ t.skipped label →
      t'.presences.presenceByKey = t.presences.presenceByKey → Passes t label t'
  | read {o : Orders} {eventPayload : EventPayload} : t.read? label = some eventPayload →
      t'.passed = t.passed ++ [eventPayload] →
      t'.presences.presenceByKey = (received o t.presences.presenceByKey eventPayload).1 →
      Passes t label t'

theorem passed_of_position {next count : Nat} {presences : World}
    (hchannel : presences.channel = t.presences.channel)
    (htask : presences.task = .listening next) (hnext : next = t.position + count) :
    (t.setPresences presences).passed =
      t.passed ++ (t.eventPayloads.sent.drop t.position).take count := by
  have hqueue : (t.setPresences presences).eventPayloads = t.eventPayloads := by
    simp [eventPayloads, setPresences, hchannel]
  have hnext' : (t.setPresences presences).position = t.position + count := by
    simp [position, setPresences, htask, hnext]
  rw [passed, hqueue, hnext', passed, List.take_add]

theorem passes_receive {orders : Orders} (hstep : t.receive orders = some t') :
    t'.position ≤ t'.eventPayloads.sent.length ∧ Passes t (.receive orders) t' := by
  unfold Client.receive at hstep
  cases htask : t.presences.task with
  | spawned | ended => simp [htask] at hstep
  | listening next =>
      have hnext : t.position = next := by simp [position, htask]
      simp only [htask] at hstep
      cases hrecv : t.eventPayloads.recv next with
      | mk received next' =>
          cases received with
          | empty => simp [hrecv] at hstep
          | lagged missed =>
              simp only [hrecv, Option.some.injEq] at hstep
              subst hstep
              obtain ⟨rfl, hle⟩ := BroadcastQueue.recv_lagged_eq hrecv
              refine ⟨hle, .skipped (by simp [read?, htask, hrecv]) ?_ rfl⟩
              have hskipped : t.skipped (.receive orders) =
                  (t.eventPayloads.sent.drop t.position).take missed := by
                simp [skipped, htask, hrecv, hnext]
              rw [hskipped]
              exact passed_of_position rfl rfl (hnext ▸ rfl)
          | message e =>
              simp only [hrecv, Option.some.injEq] at hstep
              subst hstep
              obtain ⟨hget, rfl⟩ := BroadcastQueue.recv_message_eq hrecv
              obtain ⟨hlt, _⟩ := List.getElem?_eq_some_iff.mp hget
              refine ⟨hlt, .read (by simp [read?, htask, hrecv]) ?_ rfl⟩
              have hone : (t.eventPayloads.sent.drop t.position).take 1 = [e] := by
                rw [hnext, List.take_one, List.head?_drop, hget]
                rfl
              rw [← hone]
              exact passed_of_position rfl rfl (hnext ▸ rfl)

theorem passes_of_step {ls : List System.Label}
    (hsystem : Machine.Run (System.machine strategy) Machine.Free System.init ls t.system)
    (hposition : t.position ≤ t.eventPayloads.sent.length)
    (hstep : Client.step strategy t label = some t') (hlistening : t'.isListening = true) :
    t'.position ≤ t'.eventPayloads.sent.length ∧ Passes t label t' := by
  cases label with
  | system label =>
      simp only [Client.step, Option.map_eq_some_iff] at hstep
      obtain ⟨s', hs', rfl⟩ := hstep
      have hbegins : t.eventPayloads.sent <+: (s'.eventPayloads t.presences.channel).sent :=
        effects_grow hsystem hs'
      refine ⟨Nat.le_trans hposition hbegins.length_le, .skipped rfl ?_ rfl⟩
      obtain ⟨more, hmore⟩ := hbegins
      show (s'.eventPayloads t.presences.channel).sent.take t.position = t.passed ++ []
      rw [← hmore, List.take_append_of_le_length hposition, List.append_nil]
      rfl
  | start =>
      simp only [Client.step] at hstep
      split at hstep
      · rename_i htask
        cases hstep
        have hnext : t.eventPayloads.subscribe =
            t.position + (t.eventPayloads.sent.length - t.position) :=
          (Nat.add_sub_of_le hposition).symm
        refine ⟨Nat.le_refl _, .skipped rfl ?_ rfl⟩
        have hskipped : t.skipped .start = (t.eventPayloads.sent.drop t.position).take
            (t.eventPayloads.sent.length - t.position) := by
          rw [← List.length_drop, List.take_length]
          simp [skipped, unread, htask, position]
        rw [hskipped]
        exact passed_of_position rfl rfl hnext
      · cases hstep
  | receive orders => exact passes_receive hstep
  | list =>
      simp only [Client.step] at hstep
      split at hstep
      · cases hstep
        exact ⟨hposition, .skipped rfl (List.append_nil _).symm rfl⟩
      · cases hstep
  | shutdown =>
      simp only [Client.step] at hstep
      split at hstep <;> cases hstep
      cases hlistening

theorem isListening_of_step (hstep : Client.step strategy t label = some t')
    (hlistening : t'.isListening = true) : t.isListening = true := by
  cases htask : t.presences.task with
  | spawned | listening => simp [isListening, htask]
  | ended =>
      cases label with
      | system label =>
          simp only [Client.step, Option.map_eq_some_iff] at hstep
          obtain ⟨s', _, rfl⟩ := hstep
          simp [isListening, htask] at hlistening
      | start | list | shutdown => simp [Client.step, htask] at hstep
      | receive => simp [Client.step, Client.receive, htask] at hstep

theorem position_le_of_run {ls₀ : List System.Label} {s₀ : System} {ls : List Label}
    {ok : Client → Label → Prop} {channel : JoinReference}
    (h₀ : Machine.Run (System.machine strategy) Machine.Free System.init ls₀ s₀)
    (h : Machine.Run (machine strategy) ok (spawn s₀ channel) ls t) :
    t.isListening = true → t.position ≤ t.eventPayloads.sent.length := by
  refine h.invariant_of_run
    (I := fun t => t.isListening = true → t.position ≤ t.eventPayloads.sent.length)
    (fun _ => Nat.le_refl _) ?_
  intro ls t label t' hrun ih _ hstep hlistening
  obtain ⟨ks, hks⟩ := system_of_run h₀ hrun
  exact (passes_of_step hks (ih (isListening_of_step hstep hlistening)) hstep hlistening).1

/-- Whatever the listener had before. -/
theorem Passes.recovered (h : Passes t label t') (hread : t.read? label = some e)
    (hreplaces : e.replaces = true) : t'.Recovered := by
  intro _
  cases h with
  | skipped hnone => cases hnone.symm.trans hread
  | read hread' hpassed hmap =>
      cases hread'.symm.trans hread
      rw [hpassed, hmap, applyAll_concat]
      exact sameReferences_of_replaces hreplaces

theorem Passes.stays (h : Passes t label t')
    (hsame : SameReferences t.presences.presenceByKey (applyAll t.passed))
    (hskips : t.skipsNoPresences label = true) :
    SameReferences t'.presences.presenceByKey (applyAll t'.passed) := by
  cases h with
  | skipped _ hpassed hmap =>
      rw [hpassed, hmap, applyAll_skip hskips]
      exact hsame
  | read _ hpassed hmap =>
      rw [hpassed, hmap, applyAll_concat]
      exact sameReferences_received hsame

theorem recovered_of_run {ls₀ : List System.Label} {s₀ : System} {ls ls' : List Label}
    {ok : Client → Label → Prop} {channel : JoinReference} {t'' : Client}
    (h₀ : Machine.Run (System.machine strategy) Machine.Free System.init ls₀ s₀)
    (h : Machine.Run (machine strategy) ok (spawn s₀ channel) ls t)
    (hread : t.read? label = some e) (hreplaces : e.replaces = true)
    (hstep : Client.step strategy t label = some t')
    (h' : Machine.Run (machine strategy) (fun t l => t.skipsNoPresences l = true) t' ls' t'') :
    t''.Recovered := by
  have hrun : Machine.Run (machine strategy) Machine.Free (spawn s₀ channel) (ls ++ [label]) t' :=
    h.free.snoc trivial hstep
  refine h'.invariant_of_run (I := Recovered) ?_ ?_
  · intro hlistening
    obtain ⟨ks, hks⟩ := system_of_run h₀ h
    have hposition := position_le_of_run h₀ h (isListening_of_step hstep hlistening)
    exact (passes_of_step hks hposition hstep hlistening).2.recovered hread hreplaces hlistening
  · intro ks u l u' hu ih hskips hs hlistening
    have hrun' := hrun.trans hu.free
    obtain ⟨ks', hks'⟩ := system_of_run h₀ hrun'
    have hlistening' := isListening_of_step hs hlistening
    have hposition := position_le_of_run h₀ hrun' hlistening'
    exact (passes_of_step hks' hposition hs hlistening).2.stays (ih hlistening') hskips

end Client

end Presences

end PhoenixChannels
