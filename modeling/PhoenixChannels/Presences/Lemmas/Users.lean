import PhoenixChannels.Presences.Lemmas.Tracking
import PhoenixChannels.Presences.Users

/-!
# What a step of a presence listener's users can do

The steps with what each of them changes, and what holds of the calls in every state: who is in the
queue, who was answered, and who waits for the end of the listener.
-/

namespace PhoenixChannels.Presences

open Machine

/-! ## The events of one payload -/

variable {orders : Orders} {map : PresenceByKey} {e : EventPayload}

/-- Where the map is changed, a sync is sent. -/
theorem received_changes : (received orders map e).1 = map ∨
    ((received orders map e).2.filterMap Event.sync?) ≠ [] := by
  unfold received
  split
  · unfold presenceState
    split
    · exact .inr (by simp [Event.sync?])
    · exact .inl rfl
  · unfold presenceDiff
    split
    · exact .inr (by simp [Event.sync?])
    · exact .inl rfl
  · exact .inl rfl

namespace Users

variable {strategy : Option (Nat → Duration)} {u u' u₁ u₂ : Users} {label : Label}
variable {ok : Users → Label → Prop} {ls ls₁ ls₂ : List Label} {i j : Nat} {op : Operation}
variable {s₀ : System} {c : JoinReference} {values : List Presence}

/-! ## Steps -/

/-- What a step of the listener, or of the client beside it, changes. -/
inductive ListenerStep (u : Users) : Client.Label → Users → Prop
  /-- The listener answers nobody. Where its map changes, it sends a sync. -/
  | other {label client events} :
      client.presences.events = u.client.presences.events ++ events →
      client.presences.presenceByKey = u.presenceByKey ∨ events.filterMap Event.sync? ≠ [] →
      (client.presences.task = .ended ↔ u.isEnded = true) →
      ListenerStep u label { u with client }
  | list {k rest client} : u.listRx = k :: rest → u.isEnded = false →
      client.presences.presenceByKey = u.presenceByKey →
      client.presences.events = u.client.presences.events →
      client.presences.task = u.client.presences.task →
      ListenerStep u .list { u with
        client
        listRx := rest
        answered := u.answered ++ [(k, Dict.values u.presenceByKey)] }
  | shutdown {client} : u.shutdownRx = true → u.isEnded = false →
      client.presences = { u.client.presences with task := .ended } →
      ListenerStep u .shutdown { u with client, listRx := [] }

/-- What a step of a call changes. -/
inductive CallStep (u : Users) (i : Nat) (op : Operation) : Users → Prop
  | queued : op.phase = .sending → op.request = .list → u.isEnded = false →
      CallStep u i op ({ u with listRx := u.listRx ++ [i] }.setPhase i op .waiting)
  | cutOff : op.phase = .sending ∧ op.request = .list ∧ u.isEnded = true ∨
        op.phase = .waiting ∧ i ∉ u.listRx ∧ (∀ presences, (i, presences) ∉ u.answered) →
      CallStep u i op (u.setPhase i op .closing)
  | shutdown : op.phase = .sending → op.request = .shutdown →
      CallStep u i op ({ u with
        shutdownTx := false
        shutdownRx := u.shutdownRx || u.shutdownTx }.setPhase i op .closing)
  | answered {presences} : op.phase = .waiting → (i, presences) ∈ u.answered →
      CallStep u i op (u.setPhase i op (.returned (.ok (some presences))))
  | takes : op.phase = .closing → u.joinHandle = true →
      CallStep u i op ({ u with joinHandle := false }.setPhase i op .joining)
  | refused : op.phase = .closing → u.joinHandle = false →
      CallStep u i op (u.setPhase i op (.returned (.error .alreadyJoined)))
  | joined {value} : op.phase = .joining → u.isEnded = true →
      value = (match op.request with
        | .list => some []
        | .shutdown => none) →
      CallStep u i op (u.setPhase i op (.returned (.ok value)))

/-- All that a step can come to. -/
inductive UsersStep (u : Users) : Label → Users → Prop
  | client {label v} : ListenerStep u label v → UsersStep u (.client label) v
  | begin {request} : UsersStep u (.begin request)
      { u with operations := u.operations ++ [⟨request, .sending⟩] }
  | call {k call v} : u.operations[k]? = some call → CallStep u k call v → UsersStep u (.advance k) v
  | subscribe : UsersStep u .subscribe { u with syncs := u.syncs ++ [u.syncTx.subscribe] }
  | sync {k next next'} : u.syncs[k]? = some next → next ≤ next' → next' ≤ u.syncTx.sent.length →
      UsersStep u (.sync k) { u with syncs := u.syncs.set k next' }
  | drop : UsersStep u .drop { u with shutdownTx := false, shutdownRx := true, dropped := true }

theorem isEnded_iff : u.isEnded = true ↔ u.client.presences.task = .ended := by
  unfold isEnded
  split
  · rename_i htask
    simp [htask]
  · rename_i htask
    simpa using htask

theorem clientStep_cases {label : Client.Label} (h : u.clientStep strategy label = some u') :
    ListenerStep u label u' := by
  cases label with
  | system label =>
      simp only [clientStep, Client.step, Option.map_map, Option.map_eq_some_iff] at h
      obtain ⟨s, _, rfl⟩ := h
      exact .other (List.append_nil _).symm (.inl rfl) isEnded_iff.symm
  | start =>
      simp only [clientStep, Client.step] at h
      split at h
      · rename_i htask
        cases h
        refine .other (List.append_nil _).symm (.inl rfl) ?_
        rw [isEnded_iff, htask]
        simp [Client.setTask, Client.setPresences]
      · cases h
  | receive orders =>
      simp only [clientStep, Client.step, Client.receive] at h
      split at h
      · rename_i next htask
        split at h
        · cases h
          refine .other rfl received_changes ?_
          rw [isEnded_iff, htask]
          simp [Client.setPresences]
        · cases h
          refine .other (List.append_nil _).symm (.inl rfl) ?_
          rw [isEnded_iff, htask]
          simp [Client.setTask, Client.setPresences]
        · cases h
      · cases h
  | list =>
      simp only [clientStep, Client.step] at h
      split at h
      · rename_i i rest hrx
        split at h
        · rename_i next htask
          cases h
          refine .list hrx ?_ rfl rfl rfl
          simp [isEnded, htask]
        · cases h
      · cases h
  | shutdown =>
      simp only [clientStep, Client.step] at h
      split at h
      · rename_i hrx
        split at h
        · rename_i next htask
          cases h
          refine .shutdown hrx ?_ rfl
          simp [isEnded, htask]
        · cases h
      · cases h

theorem advance_cases (h : u.advance i = some u') :
    ∃ op, u.operations[i]? = some op ∧ CallStep u i op u' := by
  unfold advance at h
  split at h
  · rename_i op hop
    refine ⟨op, hop, ?_⟩
    split at h <;> rename_i hphase
    · split at h <;> rename_i hrequest
      · split at h
        · cases h
          exact .cutOff (.inl ⟨hphase, hrequest, ‹_›⟩)
        · split at h <;> cases h
          exact .queued hphase hrequest (Bool.eq_false_iff.mpr ‹_›)
      · cases h
        exact .shutdown hphase hrequest
    · split at h
      · rename_i k presences hfind
        cases h
        have hk : k = i := by simpa using List.find?_some hfind
        exact .answered hphase (hk ▸ List.mem_of_find?_eq_some hfind)
      · rename_i hfind
        split at h <;> cases h
        refine .cutOff (.inr ⟨hphase, ‹_›, fun presences hmem => ?_⟩)
        simpa using List.find?_eq_none.mp hfind _ hmem
    · split at h <;> cases h
      · exact .takes hphase ‹_›
      · exact .refused hphase (Bool.eq_false_iff.mpr ‹_›)
    · split at h
      · split at h <;> rename_i hrequest <;> cases h <;>
          exact .joined hphase ‹_› (by rw [hrequest])
      · cases h
    · cases h
  · cases h

theorem step_cases (h : (machine strategy).step u label = some u') : UsersStep u label u' := by
  cases label with
  | client label => exact .client (clientStep_cases h)
  | begin request =>
      simp only [machine, step, begin] at h
      split at h <;> cases h
      exact .begin
  | advance i =>
      obtain ⟨op, hop, h⟩ := advance_cases h
      exact .call hop h
  | subscribe =>
      simp only [machine, step, subscribe] at h
      split at h <;> cases h
      exact .subscribe
  | sync j =>
      simp only [machine, step, sync] at h
      split at h
      · rename_i next hnext
        cases hrecv : u.syncTx.recv next with
        | mk received next' =>
            cases received with
            | empty => simp [hrecv] at h
            | lagged missed =>
                simp only [hrecv, Option.some.injEq] at h
                subst h
                obtain ⟨hnext', hle⟩ := BroadcastQueue.recv_lagged_eq hrecv
                exact .sync hnext (by omega) hle
            | message _ =>
                simp only [hrecv, Option.some.injEq] at h
                subst h
                obtain ⟨hget, rfl⟩ := BroadcastQueue.recv_message_eq hrecv
                exact .sync hnext (Nat.le_succ _) (List.getElem?_eq_some_iff.mp hget).1
      · cases h
  | drop =>
      simp only [machine, step, drop] at h
      split at h <;> cases h
      exact .drop

/-! ## The map and the syncs -/

/-- Syncs are only added, and the map is changed only where one is. -/
theorem UsersStep.map_cases (h : UsersStep u label u') :
    u.syncTx.sent.length ≤ u'.syncTx.sent.length ∧ (u'.presenceByKey = u.presenceByKey ∨
      u.syncTx.sent.length < u'.syncTx.sent.length) := by
  cases h with
  | client h =>
      cases h with
      | @other _ client events hevents hmap =>
          simp only [syncTx, hevents, List.filterMap_append, List.length_append]
          refine ⟨Nat.le_add_right _ _, hmap.imp_right fun hsync => ?_⟩
          have hpos := List.length_pos_iff.mpr hsync
          omega
      | list _ _ hmap hevents =>
          simp only [syncTx, hevents]
          exact ⟨Nat.le_refl _, .inl hmap⟩
      | shutdown _ _ hpresences =>
          exact ⟨by simp [syncTx, hpresences], .inl (by simp [presenceByKey, hpresences])⟩
  | call _ h => cases h <;> exact ⟨Nat.le_refl _, .inl rfl⟩
  | begin | subscribe | sync | drop => exact ⟨Nat.le_refl _, .inl rfl⟩

theorem UsersStep.syncs (h : UsersStep u label u')
    (hle : ∀ (k next : Nat), u.syncs[k]? = some next → next ≤ u.syncTx.sent.length) :
    ∀ (k next : Nat), u'.syncs[k]? = some next → next ≤ u'.syncTx.sent.length := by
  have hgrows := h.map_cases.1
  intro k next hk
  refine Nat.le_trans ?_ hgrows
  cases h with
  | client h => cases h <;> exact hle k next hk
  | call _ h => cases h <;> exact hle k next hk
  | begin | drop => exact hle k next hk
  | subscribe =>
      rw [List.getElem?_append] at hk
      split at hk
      · exact hle k next hk
      · obtain rfl := List.mem_singleton.mp (List.mem_of_getElem? hk)
        exact Nat.le_refl _
  | sync hnext _ hnext' =>
      rw [List.getElem?_set] at hk
      split at hk
      · split at hk <;> cases hk
        exact hnext'
      · exact hle k next hk

theorem syncs_le_of_run (h : Run (machine strategy) ok (spawn s₀ c) ls u) :
    ∀ (k next : Nat), u.syncs[k]? = some next → next ≤ u.syncTx.sent.length := by
  refine h.invariant (I := fun u => ∀ (k next : Nat), u.syncs[k]? = some next →
    next ≤ u.syncTx.sent.length) (by simp [spawn]) ?_
  intro u label u' ih _ hs
  exact (step_cases hs).syncs ih

/-! ## The calls -/

theorem setPhase_getElem? {phase : Phase} (hop : u.operations[i]? = some op) (k : Nat) :
    (u.setPhase i op phase).operations[k]? =
      if i = k then some { op with phase } else u.operations[k]? := by
  have hlt := (List.getElem?_eq_some_iff.mp hop).1
  simp [setPhase, List.getElem?_set, hlt]

/-- The calls whose senders are in the queue, and those that were answered. -/
structure Queued (u : Users) : Prop where
  waiting {i : Nat} : i ∈ u.listRx → u.operations[i]? = some ⟨.list, .waiting⟩
  sent {i : Nat} {values : List Presence} : (i, values) ∈ u.answered →
    ∃ op, u.operations[i]? = some op ∧ op.phase ≠ .sending
  once : (u.listRx ++ u.answered.map Prod.fst).Nodup
  returned {i : Nat} {request : Request} {values : List Presence} :
    u.operations[i]? = some ⟨request, .returned (.ok (some values))⟩ →
      (i, values) ∈ u.answered ∨ values = [] ∧ u.isEnded = true

theorem Queued.not_answered (h : Queued u) (hi : i ∈ u.listRx) : (i, values) ∉ u.answered := by
  intro hmem
  exact (List.nodup_append.mp h.once).2.2 i hi i (List.mem_map.mpr ⟨_, hmem, rfl⟩) rfl

theorem UsersStep.isEnded (h : UsersStep u label u') (hended : u.isEnded = true) :
    u'.isEnded = true := by
  cases h with
  | client h =>
      cases h with
      | other _ _ htask => exact isEnded_iff.mpr (htask.mpr hended)
      | list _ hrunning | shutdown _ hrunning => cases hrunning.symm.trans hended
  | call _ h => cases h <;> exact hended
  | begin | subscribe | sync | drop => exact hended

theorem Queued.of_eq (h : Queued u) (hrx : u'.listRx = u.listRx)
    (hanswered : u'.answered = u.answered) (hoperations : u'.operations = u.operations)
    (hended : u.isEnded = true → u'.isEnded = true) : Queued u' where
  waiting hi := hoperations ▸ h.waiting (hrx ▸ hi)
  sent hmem := hoperations ▸ h.sent (hanswered ▸ hmem)
  once := by
    rw [hrx, hanswered]
    exact h.once
  returned hop := by
    rw [hanswered]
    exact (h.returned (hoperations ▸ hop)).imp_right (And.imp_right hended)

theorem Queued.sent_setPhase {phase : Phase} {k : Nat} (h : Queued u)
    (hop : u.operations[i]? = some op) (hphase : phase ≠ .sending) (hmem : (k, values) ∈ u.answered) :
    ∃ op', (u.setPhase i op phase).operations[k]? = some op' ∧ op'.phase ≠ .sending := by
  rw [setPhase_getElem? hop]
  split
  · exact ⟨_, rfl, hphase⟩
  · exact h.sent hmem

theorem Queued.not_mem (h : Queued u) (hop : u.operations[i]? = some op)
    (hphase : op.phase ≠ .waiting) : i ∉ u.listRx := by
  intro hi
  cases hop.symm.trans (h.waiting hi)
  exact hphase rfl

/-- A call goes on, and the queue and the answers are what they were. -/
theorem Queued.setPhase {phase : Phase} (h : Queued u) (hop : u.operations[i]? = some op)
    (hnot : i ∉ u.listRx) (hphase : phase ≠ .sending) (hrx : u'.listRx = u.listRx)
    (hanswered : u'.answered = u.answered)
    (hoperations : u'.operations = (u.setPhase i op phase).operations)
    (hended : u'.isEnded = u.isEnded)
    (hreturned : ∀ values, phase = .returned (.ok (some values)) →
      (i, values) ∈ u.answered ∨ values = [] ∧ u.isEnded = true) : Queued u' where
  waiting := by
    intro k hk
    rw [hrx] at hk
    have hne : i ≠ k := by
      rintro rfl
      exact hnot hk
    rw [hoperations, setPhase_getElem? hop, if_neg hne]
    exact h.waiting hk
  sent hmem := hoperations ▸ h.sent_setPhase hop hphase (hanswered ▸ hmem)
  once := by
    rw [hrx, hanswered]
    exact h.once
  returned := by
    intro k request values hk
    rw [hanswered, hended]
    rw [hoperations, setPhase_getElem? hop] at hk
    split at hk
    · rename_i heq
      simp only [Option.some.injEq, Operation.mk.injEq] at hk
      exact heq ▸ hreturned values hk.2
    · exact h.returned hk

/-- A call puts its sender into the queue. -/
theorem Queued.push (h : Queued u) (hop : u.operations[i]? = some op) (hphase : op.phase = .sending)
    (hrequest : op.request = .list) (hrx : u'.listRx = u.listRx ++ [i])
    (hanswered : u'.answered = u.answered)
    (hoperations : u'.operations = (u.setPhase i op .waiting).operations)
    (hended : u'.isEnded = u.isEnded) : Queued u' := by
  have hnot : i ∉ u.listRx := h.not_mem hop (by simp [hphase])
  have hnew : i ∉ u.answered.map Prod.fst := by
    intro hmem
    obtain ⟨⟨k, values⟩, hmem, hk⟩ := List.mem_map.mp hmem
    obtain ⟨op', hop', hsent⟩ := h.sent hmem
    subst hk
    cases hop.symm.trans hop'
    exact hsent hphase
  constructor
  · intro k hk
    rw [hoperations, setPhase_getElem? hop]
    rw [hrx] at hk
    rcases List.mem_append.mp hk with hk | hk
    · have hne : i ≠ k := by
        rintro rfl
        exact hnot hk
      rw [if_neg hne]
      exact h.waiting hk
    · obtain rfl := List.mem_singleton.mp hk
      rw [if_pos rfl, hrequest]
  · intro k values hmem
    exact hoperations ▸ h.sent_setPhase hop (by simp) (hanswered ▸ hmem)
  · rw [hrx, hanswered, List.append_assoc, List.singleton_append, List.nodup_middle]
    exact List.nodup_cons.mpr ⟨by simp only [List.mem_append, hnot, hnew, or_self, not_false_eq_true],
      h.once⟩
  · intro k request values hk
    rw [hanswered, hended]
    rw [hoperations, setPhase_getElem? hop] at hk
    split at hk
    · simp at hk
    · exact h.returned hk

theorem CallStep.keepsQueued (h : Queued u) (hop : u.operations[i]? = some op)
    (hstep : CallStep u i op u') : Queued u' := by
  cases hstep with
  | queued hphase hrequest => exact h.push hop hphase hrequest rfl rfl rfl rfl
  | cutOff hcase =>
      refine h.setPhase hop ?_ (by simp) rfl rfl rfl rfl (by simp)
      rcases hcase with ⟨hphase, _⟩ | ⟨_, hnot, _⟩
      · exact h.not_mem hop (by simp [hphase])
      · exact hnot
  | answered _ hmem =>
      refine h.setPhase hop (fun hi => h.not_answered hi hmem) (by simp) rfl rfl rfl rfl ?_
      intro values heq
      cases heq
      exact .inl hmem
  | shutdown hphase | takes hphase | refused hphase =>
      exact h.setPhase hop (h.not_mem hop (by simp [hphase])) (by simp) rfl rfl rfl rfl (by simp)
  | joined hphase hended hvalue =>
      refine h.setPhase hop (h.not_mem hop (by simp [hphase])) (by simp) rfl rfl rfl rfl ?_
      intro values heq
      cases heq
      split at hvalue <;> cases hvalue
      exact .inr ⟨rfl, hended⟩

theorem UsersStep.keepsQueued (h : Queued u) (hstep : UsersStep u label u') : Queued u' := by
  have hended := hstep.isEnded
  cases hstep with
  | client hlistener =>
      cases hlistener with
      | other => exact h.of_eq rfl rfl rfl hended
      | @list k rest client hrx =>
          constructor
          · exact fun hi => h.waiting (hrx ▸ List.mem_cons_of_mem _ hi)
          · intro i values hmem
            rcases List.mem_append.mp hmem with hmem | hmem
            · exact h.sent hmem
            · cases List.mem_singleton.mp hmem
              exact ⟨_, h.waiting (hrx ▸ List.mem_cons_self), by simp⟩
          · have honce := h.once
            rw [hrx] at honce
            simpa [List.nodup_middle, ← List.append_assoc, List.nodup_append_comm] using honce
          · intro i request values hop
            rcases h.returned hop with hmem | hempty
            · exact .inl (List.mem_append_left _ hmem)
            · exact .inr (hempty.imp_right hended)
      | shutdown =>
          refine ⟨by simp, h.sent, h.once.of_append_right, fun hop => ?_⟩
          exact (h.returned hop).imp_right (And.imp_right hended)
  | @begin request =>
      have older : ∀ {i op}, u.operations[i]? = some op →
          (u.operations ++ [⟨request, .sending⟩])[i]? = some op := fun hop => by
        rw [List.getElem?_append_left (List.getElem?_eq_some_iff.mp hop).1]
        exact hop
      refine ⟨fun hi => older (h.waiting hi), fun hmem => ?_, h.once, fun hop => ?_⟩
      · obtain ⟨op, hop, hsent⟩ := h.sent hmem
        exact ⟨op, older hop, hsent⟩
      · rw [List.getElem?_append] at hop
        split at hop
        · exact h.returned hop
        · have hnew := List.mem_singleton.mp (List.mem_of_getElem? hop)
          simp at hnew
  | call hop hcall => exact hcall.keepsQueued h hop
  | subscribe | sync | drop => exact h.of_eq rfl rfl rfl hended

theorem queued_of_run (h : Run (machine strategy) ok (spawn s₀ c) ls u) : Queued u := by
  refine h.invariant (I := Queued) ?_ fun u label u' ih _ hs => (step_cases hs).keepsQueued ih
  constructor <;> simp [spawn]

/-! ## How calls go on -/

/-- Whoever waits for a list is in the queue or was answered, and whoever waits for the end of the
listener has asked for it, unless the listener has ended. -/
structure Finishing (u : Users) : Prop where
  waits {i : Nat} {op : Operation} : u.operations[i]? = some op → op.phase = .waiting →
    op.request = .list ∧ (i ∈ u.listRx ∨ (∃ values, (i, values) ∈ u.answered) ∨ u.isEnded = true)
  late {i : Nat} {op : Operation} : u.operations[i]? = some op → op.phase.isLate = true →
    u.isEnded = true ∨ op.request = .shutdown ∧ u.shutdownRx = true
  signal : u.shutdownTx = true ∨ u.shutdownRx = true
  emptied : u.isEnded = true → u.listRx = []

/-- A call goes on. -/
theorem Finishing.setPhase {phase : Phase} (h : Finishing u) (hop : u.operations[i]? = some op)
    (hrx : u'.listRx = u.listRx ∨ u'.listRx = u.listRx ++ [i] ∧ u.isEnded = false)
    (hanswered : u'.answered = u.answered)
    (hoperations : u'.operations = (u.setPhase i op phase).operations)
    (hended : u'.isEnded = u.isEnded) (hshutdownRx : u.shutdownRx = true → u'.shutdownRx = true)
    (hsignal : u'.shutdownTx = true ∨ u'.shutdownRx = true)
    (hwaits : phase = .waiting → op.request = .list ∧ i ∈ u'.listRx)
    (hlate : phase.isLate = true →
      u.isEnded = true ∨ op.request = .shutdown ∧ u'.shutdownRx = true) : Finishing u' := by
  have hkeeps : ∀ {k}, k ∈ u.listRx → k ∈ u'.listRx := by
    intro k hk
    rcases hrx with hrx | ⟨hrx, _⟩ <;> simp [hrx, hk]
  constructor
  · intro k op' hk hphase
    rw [hoperations, setPhase_getElem? hop] at hk
    rw [hanswered, hended]
    split at hk
    · rename_i heq
      cases hk
      subst heq
      obtain ⟨hrequest, hmem⟩ := hwaits hphase
      exact ⟨hrequest, .inl hmem⟩
    · obtain ⟨hrequest, hcases⟩ := h.waits hk hphase
      exact ⟨hrequest, hcases.imp_left hkeeps⟩
  · intro k op' hk hphase
    rw [hoperations, setPhase_getElem? hop] at hk
    rw [hended]
    split at hk
    · cases hk
      exact hlate hphase
    · exact (h.late hk hphase).imp_right (And.imp_right hshutdownRx)
  · exact hsignal
  · intro hended'
    rw [hended] at hended'
    rcases hrx with hrx | ⟨_, hrunning⟩
    · rw [hrx]
      exact h.emptied hended'
    · cases hrunning.symm.trans hended'

theorem CallStep.finishing (h : Finishing u) (hop : u.operations[i]? = some op)
    (hstep : CallStep u i op u') : Finishing u' := by
  cases hstep with
  | queued hphase hrequest hrunning =>
      exact h.setPhase hop (.inr ⟨rfl, hrunning⟩) rfl rfl rfl id h.signal
        (fun _ => ⟨hrequest, by simp [Users.setPhase]⟩) (by simp [Phase.isLate])
  | cutOff hcase =>
      refine h.setPhase hop (.inl rfl) rfl rfl rfl id h.signal (by simp) fun _ => .inl ?_
      rcases hcase with ⟨_, _, hended⟩ | ⟨hphase, hnot, hnone⟩
      · exact hended
      · obtain ⟨_, hmem | ⟨values, hmem⟩ | hended⟩ := h.waits hop hphase
        · exact absurd hmem hnot
        · exact absurd hmem (hnone values)
        · exact hended
  | shutdown hphase hrequest =>
      have hsignal : (u.shutdownRx || u.shutdownTx) = true := by
        rcases h.signal with hsignal | hsignal <;> simp [hsignal]
      exact h.setPhase hop (.inl rfl) rfl rfl rfl (fun _ => hsignal) (.inr hsignal) (by simp)
        fun _ => .inr ⟨hrequest, hsignal⟩
  | takes hphase | refused hphase =>
      exact h.setPhase hop (.inl rfl) rfl rfl rfl id h.signal (by simp)
        fun _ => h.late hop (by simp [hphase, Phase.isLate])
  | answered | joined =>
      exact h.setPhase hop (.inl rfl) rfl rfl rfl id h.signal (by simp) (by simp [Phase.isLate])

theorem UsersStep.finishing (h : Finishing u) (hstep : UsersStep u label u') : Finishing u' := by
  have hended := hstep.isEnded
  have kept : u'.listRx = u.listRx → u'.answered = u.answered → u'.operations = u.operations →
      (u'.isEnded = true → u.isEnded = true) →
      (u.shutdownRx = true → u'.shutdownRx = true) →
      (u'.shutdownTx = true ∨ u'.shutdownRx = true) → Finishing u' := by
    intro hrx hanswered hoperations hrunning hshutdownRx hsignal
    refine ⟨fun hop hphase => ?_, fun hop hphase => ?_, hsignal, fun hended' => ?_⟩
    · rw [hrx, hanswered]
      obtain ⟨hrequest, hcases⟩ := h.waits (hoperations ▸ hop) hphase
      exact ⟨hrequest, hcases.imp_right (Or.imp_right hended)⟩
    · exact (h.late (hoperations ▸ hop) hphase).imp hended (And.imp_right hshutdownRx)
    · rw [hrx]
      exact h.emptied (hrunning hended')
  cases hstep with
  | client hlistener =>
      cases hlistener with
      | other _ _ htask =>
          exact kept rfl rfl rfl (fun h => htask.mp (isEnded_iff.mp h)) id h.signal
      | @list k rest client hrx hrunning _ _ htask =>
          refine ⟨fun hop hphase => ?_, fun hop hphase => ?_, h.signal, fun hended' => ?_⟩
          · obtain ⟨hrequest, hmem | ⟨values, hmem⟩ | hended'⟩ := h.waits hop hphase
            · rw [hrx, List.mem_cons] at hmem
              rcases hmem with rfl | hmem
              · exact ⟨hrequest, .inr (.inl ⟨Dict.values u.presenceByKey, by simp⟩)⟩
              · exact ⟨hrequest, .inl hmem⟩
            · exact ⟨hrequest, .inr (.inl ⟨values, List.mem_append_left _ hmem⟩)⟩
            · exact ⟨hrequest, .inr (.inr (hended hended'))⟩
          · exact (h.late hop hphase).imp_left hended
          · rw [isEnded_iff, htask, ← isEnded_iff] at hended'
            cases hrunning.symm.trans hended'
      | shutdown hrx _ hpresences =>
          have hended' : Users.isEnded { u with client := _, listRx := [] } = true :=
            isEnded_iff.mpr (by rw [hpresences])
          exact ⟨fun hop hphase => ⟨(h.waits hop hphase).1, .inr (.inr hended')⟩,
            fun _ _ => .inl hended', h.signal, fun _ => rfl⟩
  | @begin request =>
      refine ⟨fun hop hphase => ?_, fun hop hphase => ?_, h.signal, h.emptied⟩
      all_goals
        rw [List.getElem?_append] at hop
        split at hop
      · exact h.waits hop hphase
      · obtain rfl := List.mem_singleton.mp (List.mem_of_getElem? hop)
        cases hphase
      · exact h.late hop hphase
      · obtain rfl := List.mem_singleton.mp (List.mem_of_getElem? hop)
        cases hphase
  | call hop hcall => exact hcall.finishing h hop
  | subscribe | sync => exact kept rfl rfl rfl id id h.signal
  | drop => exact kept rfl rfl rfl id (fun _ => rfl) (.inr rfl)

theorem finishing_of_run (h : Run (machine strategy) ok (spawn s₀ c) ls u) : Finishing u := by
  refine h.invariant (I := Finishing) ?_ fun u label u' ih _ hs => (step_cases hs).finishing ih
  constructor <;> simp [spawn]

end Users

end PhoenixChannels.Presences
