import PhoenixChannels.Statuses.World
import Mathlib.Data.List.Chain

/-!
# What the observers of a status know

An observer that has nothing left to read knows the status. What it reads without a gap is a part of
all that is sent, so that it goes along the same edges.
-/

namespace PhoenixChannels.Statuses

open Machine

variable {τ ℓ σ ε : Type}

/-! ## Following the messages -/

/-- What a message says that the status is; an error says nothing about it. -/
def takeMessage (status : σ) : Except ε σ → σ
  | .ok status' => status'
  | .error _ => status

/-- What somebody who takes `status` for the status takes for it after reading `messages`. -/
def follow (status : σ) (messages : List (Except ε σ)) : σ := messages.foldl takeMessage status

theorem follow_append (s : σ) (ms ms' : List (Except ε σ)) :
    follow s (ms ++ ms') = follow (follow s ms) ms' := by simp [follow]

theorem follow_errors (s : σ) (es : List ε) : follow s (es.map Except.error) = s := by
  induction es with
  | nil => rfl
  | cons e es ih => exact ih

/-- Whether the messages say what the status is does not depend on what it was before. -/
theorem follow_cases (ms : List (Except ε σ)) :
    (∀ s, follow s ms = s) ∨ ∃ v, ∀ s, follow s ms = v := by
  induction ms with
  | nil => exact .inl fun _ => rfl
  | cons m ms ih =>
      cases m with
      | error e => exact ih
      | ok s' => exact .inr ⟨follow s' ms, fun _ => rfl⟩

theorem follow_again (s : σ) (ms : List (Except ε σ)) : follow (follow s ms) ms = follow s ms := by
  rcases follow_cases ms with h | ⟨v, h⟩ <;> simp only [h]

/-- The last messages say the same to somebody who knows already what they lead to. -/
theorem follow_drop {s v : σ} {ms : List (Except ε σ)} (h : follow s ms = v) (n : Nat) :
    follow v (ms.drop n) = v := by
  rw [← List.take_append_drop n ms, follow_append] at h
  rw [← h, follow_again]

/-! ## Writers -/

variable {W : Writer τ ℓ σ ε} {w w' : World τ σ ε} {o o' : Observer σ ε} {s s₀ : σ} {t t' : τ} {l : ℓ}

/-- Only its own steps set the status or send an error. -/
structure Writer.Frames (W : Writer τ ℓ σ ε) : Prop where
  status : ∀ ⦃t l t'⦄, W.own l = false → W.machine.step t l = some t' → W.status t' = W.status t
  errors : ∀ ⦃t l t'⦄, W.own l = false → W.machine.step t l = some t' → W.errors t' = W.errors t

/-! ## The status that an observer knows -/

/-- What the observers of a status know. -/
structure Known (W : Writer τ ℓ σ ε) (s₀ : σ) (w : World τ σ ε) : Prop where
  agrees : w.status.status = W.status w.task
  unsent : ∀ ⦃s⦄, w.unsent = some s → w.status.status = s
  sent : w.unsent = none → follow s₀ w.status.tx.sent = w.status.status
  reached : ∀ ⦃o⦄, o ∈ w.observers → o.next ≤ w.status.tx.sent.length
  known : ∀ ⦃o s⦄, o ∈ w.observers → o.known = some s → w.unsent = none →
    follow s (w.status.tx.sent.drop o.next) = w.status.status

theorem Known.start : Known W (W.status t) (W.start t) where
  agrees := rfl
  unsent := by simp [Writer.start]
  sent := fun _ => rfl
  reached := by simp [Writer.start]
  known := by simp [Writer.start]

/-- Where an observer changes, the others do not. -/
theorem Known.setObserver (h : Known W s₀ w) {i : Nat}
    (hreached : o'.next ≤ w.status.tx.sent.length)
    (hknown : ∀ s, o'.known = some s → w.unsent = none →
      follow s (w.status.tx.sent.drop o'.next) = w.status.status) :
    Known W s₀ { w with observers := w.observers.set i o' } where
  agrees := h.agrees
  unsent := h.unsent
  sent := h.sent
  reached := by
    intro o ho
    rcases List.mem_or_eq_of_mem_set ho with ho | rfl
    · exact h.reached ho
    · exact hreached
  known := by
    intro o s ho hs hunsent
    rcases List.mem_or_eq_of_mem_set ho with ho | rfl
    · exact h.known ho hs hunsent
    · exact hknown s hs hunsent

theorem Known.send (h : Known W s₀ w) (hunsent : w.unsent = some s) :
    Known W s₀ { w with status := w.status.send s, unsent := none } where
  agrees := h.agrees
  unsent := by simp
  sent := by
    intro _
    rw [ObservableStatus.send_sent, follow_append]
    exact (h.unsent hunsent).symm
  reached := by
    intro o ho
    have := h.reached ho
    simp only [ObservableStatus.send_sent, List.length_append]
    omega
  known := by
    intro o s' ho _ _
    rw [ObservableStatus.send_sent, List.drop_append_of_le_length (h.reached ho), follow_append]
    exact (h.unsent hunsent).symm

theorem Known.subscribe (h : Known W s₀ w) : Known W s₀ w.subscribeStep where
  agrees := h.agrees
  unsent := h.unsent
  sent := h.sent
  reached := by
    intro o ho
    rcases List.mem_append.mp ho with ho | ho
    · exact h.reached ho
    · cases List.mem_singleton.mp ho
      exact Nat.le_refl _
  known := by
    intro o s ho hs hunsent
    rcases List.mem_append.mp ho with ho | ho
    · exact h.known ho hs hunsent
    · cases List.mem_singleton.mp ho
      cases hs

theorem Known.read (h : Known W s₀ w) {i : Nat} (ho : w.observers[i]? = some o)
    (hreads : Reads w.status o o') : Known W s₀ { w with observers := w.observers.set i o' } := by
  have hmem : o ∈ w.observers := List.mem_of_getElem? ho
  have next : ∀ {m}, w.status.tx.sent[o.next]? = some m →
      w.status.tx.sent.drop o.next = m :: w.status.tx.sent.drop (o.next + 1) ∧
        o.next + 1 ≤ w.status.tx.sent.length := by
    intro m hm
    obtain ⟨hlt, rfl⟩ := List.getElem?_eq_some_iff.mp hm
    exact ⟨List.drop_eq_getElem_cons hlt, hlt⟩
  cases hreads with
  | @status s hsent =>
      obtain ⟨hdrop, hle⟩ := next hsent
      refine h.setObserver hle fun s' hs' hunsent => ?_
      cases hs'
      have hsent := h.sent hunsent
      rw [← List.take_append_drop o.next w.status.tx.sent, hdrop, follow_append] at hsent
      exact hsent
  | error hsent =>
      obtain ⟨hdrop, hle⟩ := next hsent
      refine h.setObserver hle fun s hs hunsent => ?_
      have hknown := h.known hmem hs hunsent
      rw [hdrop] at hknown
      exact hknown
  | missed hle => exact h.setObserver hle (by simp)

/-! ## The path that an observer sees -/

variable {R : Except ε σ → Except ε σ → Prop} {J : Option (Except ε σ) → τ → Prop}

/-- All messages, with the one that `set` has not sent yet. -/
def World.messages (w : World τ σ ε) : List (Except ε σ) :=
  w.status.tx.sent ++ w.unsent.toList.map .ok

structure Linked (R : Except ε σ → Except ε σ → Prop) (J : Option (Except ε σ) → τ → Prop)
    (w : World τ σ ε) : Prop where
  chain : w.messages.IsChain R
  last : J w.messages.getLast? w.task
  read : ∀ ⦃o⦄, o ∈ w.observers → o.read <:+ w.status.tx.sent.take o.next

theorem Linked.setObserver (h : Linked R J w) {i : Nat}
    (hread : o'.read <:+ w.status.tx.sent.take o'.next) :
    Linked R J { w with observers := w.observers.set i o' } where
  chain := h.chain
  last := h.last
  read := by
    intro o ho
    rcases List.mem_or_eq_of_mem_set ho with ho | rfl
    · exact h.read ho
    · exact hread

theorem Linked.reads (h : Linked R J w) {i : Nat} (ho : w.observers[i]? = some o)
    (hreads : Reads w.status o o') : Linked R J { w with observers := w.observers.set i o' } := by
  have next : ∀ {m}, w.status.tx.sent[o.next]? = some m →
      o.read ++ [m] <:+ w.status.tx.sent.take (o.next + 1) := by
    intro m hm
    rw [List.take_add_one, hm]
    exact List.suffix_append_inj_of_length_eq rfl |>.mpr ⟨h.read (List.mem_of_getElem? ho), rfl⟩
  cases hreads with
  | status hsent => exact h.setObserver (next hsent)
  | error hsent => exact h.setObserver (next hsent)
  | missed _ => exact h.setObserver (List.nil_suffix)

theorem isChain_append_of_last {α : Type*} {R : α → α → Prop} {l ms : List α} (h : l.IsChain R)
    (hms : (l.getLast?.toList ++ ms).IsChain R) : (l ++ ms).IsChain R := by
  refine h.append (hms.right_of_append) fun x hx y hy => ?_
  rw [hx] at hms
  exact (List.isChain_cons.mp hms).1 y hy

theorem getLast?_append_toList {α : Type*} {l ms : List α} :
    (l.getLast?.toList ++ ms).getLast? = (l ++ ms).getLast? := by
  cases h : l.getLast? with
  | none => simp [List.getLast?_eq_none_iff.mp h]
  | some a => simp [List.getLast?_append, List.getLast?_cons, h]

/-! ## The steps of the task -/

variable [DecidableEq σ] {ok : World τ σ ε → Label ℓ → Prop} {ls : List (Label ℓ)} {label : Label ℓ}

theorem write_sent : (w.write W t).status.tx.sent =
    w.status.tx.sent ++ ((W.errors t).drop (W.errors w.task).length).map .error := by
  simp [World.write, ObservableStatus.swap]

theorem write_unsent : (w.write W t).unsent =
    if w.status.status = W.status t then none else some (W.status t) := by
  simp [World.write, ObservableStatus.swap]

theorem Known.write (h : Known W s₀ w) (hunsent : w.unsent = none) : Known W s₀ (w.write W t) where
  agrees := rfl
  unsent := by
    intro s hs
    rw [write_unsent] at hs
    split at hs <;> cases hs
    rfl
  sent := by
    intro hnone
    rw [write_unsent] at hnone
    split at hnone
    · rename_i hsame
      rw [write_sent, follow_append, follow_errors, h.sent hunsent]
      exact hsame
    · cases hnone
  reached := by
    intro o ho
    rw [write_sent, List.length_append]
    exact Nat.le_trans (h.reached ho) (Nat.le_add_right _ _)
  known := by
    intro o s ho hs hnone
    rw [write_unsent] at hnone
    split at hnone
    · rename_i hsame
      rw [write_sent, List.drop_append_of_le_length (h.reached ho), follow_append, follow_errors,
        h.known ho hs hunsent]
      exact hsame
    · cases hnone

theorem Known.step (hW : W.Frames) (h : Known W s₀ w) (hstep : Step W w label w') :
    Known W s₀ w' := by
  cases hstep with
  | own _ hunsent _ => exact h.write hunsent
  | other hown ht =>
      have hstatus := hW.status hown ht
      exact ⟨h.agrees.trans hstatus.symm, h.unsent, h.sent, h.reached, h.known⟩
  | send hunsent => exact h.send hunsent
  | subscribe => exact h.subscribe
  | get ho =>
      have hreached := h.reached (List.mem_of_getElem? ho)
      refine h.setObserver hreached fun s hs hunsent => ?_
      cases hs
      exact follow_drop (h.sent hunsent) _
  | read ho hreads => exact h.read ho hreads

theorem known_of_run (hW : W.Frames) (h : Run W.observed ok (W.start t) ls w) :
    Known W (W.status t) w :=
  h.invariant Known.start fun _ _ _ ih _ hs => ih.step hW (step_cases hs)

/-- What a step of the task makes the status send. -/
def Writer.messages (W : Writer τ ℓ σ ε) (t t' : τ) : List (Except ε σ) :=
  ((W.errors t').drop (W.errors t).length).map .error
    ++ if W.status t = W.status t' then [] else [.ok (W.status t')]

theorem Writer.messages_eq_nil (herrors : W.errors t' = W.errors t)
    (hstatus : W.status t' = W.status t) : W.messages t t' = [] := by
  simp [Writer.messages, herrors, hstatus]

theorem Writer.messages_of_status (herrors : W.errors t' = W.errors t) :
    W.messages t t' = if W.status t = W.status t' then [] else [.ok (W.status t')] := by
  simp [Writer.messages, herrors]

theorem Writer.messages_of_errors {es : List ε} (herrors : W.errors t' = W.errors t ++ es)
    (hstatus : W.status t' = W.status t) : W.messages t t' = es.map .error := by
  simp [Writer.messages, herrors, hstatus]

/-- The messages go along the edges of `R`, where `J` tells what the task is about to do after the last
one. -/
structure Writer.Links (W : Writer τ ℓ σ ε) (R : Except ε σ → Except ε σ → Prop)
    (J : Option (Except ε σ) → τ → Prop) : Prop where
  chain : ∀ ⦃m t l t'⦄, J m t → W.machine.step t l = some t' → (m.toList ++ W.messages t t').IsChain R
  last : ∀ ⦃m t l t'⦄, J m t → W.machine.step t l = some t' →
    J (m.toList ++ W.messages t t').getLast? t'

/-- A step that makes the status send at most one message. -/
inductive Writer.Sends (W : Writer τ ℓ σ ε) (R : Except ε σ → Except ε σ → Prop)
    (J : Option (Except ε σ) → τ → Prop) (last : Option (Except ε σ)) (t t' : τ) : Prop
  | nothing : W.messages t t' = [] → J last t' → Sends W R J last t t'
  | message {m} : W.messages t t' = [m] → (∀ m', last = some m' → R m' m) → J (some m) t' →
      Sends W R J last t t'

theorem Writer.Sends.links {last : Option (Except ε σ)} (h : W.Sends R J last t t') :
    (last.toList ++ W.messages t t').IsChain R ∧ J (last.toList ++ W.messages t t').getLast? t' := by
  cases h with
  | nothing hnil hlast =>
      rw [hnil, List.append_nil]
      cases last with
      | none => exact ⟨.nil, hlast⟩
      | some m => exact ⟨List.isChain_singleton m, hlast⟩
  | @message m hmessages hedge hlast =>
      rw [hmessages]
      refine ⟨?_, by simpa using hlast⟩
      cases last with
      | none => exact List.isChain_singleton m
      | some m' => exact List.isChain_pair.mpr (hedge m' rfl)

theorem Writer.Links.of_sends
    (h : ∀ last t l t', J last t → W.machine.step t l = some t' → W.Sends R J last t t') :
    W.Links R J where
  chain _ _ _ _ hlast hs := (h _ _ _ _ hlast hs).links.1
  last _ _ _ _ hlast hs := (h _ _ _ _ hlast hs).links.2

theorem write_messages (hagrees : w.status.status = W.status w.task) (hunsent : w.unsent = none) :
    (w.write W t).messages = w.messages ++ W.messages w.task t := by
  simp only [World.messages, write_sent, write_unsent, hunsent, Writer.messages, hagrees]
  split <;> simp

theorem Linked.write (hW : W.Links R J) (h : Linked R J w) (hknown : Known W s₀ w)
    (hunsent : w.unsent = none) (ht : W.machine.step w.task l = some t) :
    Linked R J (w.write W t) where
  chain := by
    rw [write_messages hknown.agrees hunsent]
    exact isChain_append_of_last h.chain (hW.chain h.last ht)
  last := by
    rw [write_messages hknown.agrees hunsent, ← getLast?_append_toList]
    exact hW.last h.last ht
  read := by
    intro o ho
    rw [write_sent, List.take_append_of_le_length (hknown.reached ho)]
    exact h.read ho

theorem Linked.step (hF : W.Frames) (hW : W.Links R J) (h : Linked R J w) (hknown : Known W s₀ w)
    (hstep : Step W w label w') : Linked R J w' := by
  cases hstep with
  | own _ hunsent ht => exact h.write hW hknown hunsent ht
  | other hown ht =>
      have hlast := hW.last h.last ht
      rw [Writer.messages_eq_nil (hF.errors hown ht) (hF.status hown ht), getLast?_append_toList,
        List.append_nil] at hlast
      exact ⟨h.chain, hlast, h.read⟩
  | @send s hunsent =>
      have hmessages :
          ({ w with status := w.status.send s, unsent := none } : World τ σ ε).messages =
            w.messages := by
        simp [World.messages, hunsent]
      refine ⟨hmessages ▸ h.chain, hmessages ▸ h.last, fun o ho => ?_⟩
      rw [ObservableStatus.send_sent, List.take_append_of_le_length (hknown.reached ho)]
      exact h.read ho
  | subscribe =>
      refine ⟨h.chain, h.last, fun o ho => ?_⟩
      rcases List.mem_append.mp ho with ho | ho
      · exact h.read ho
      · cases List.mem_singleton.mp ho
        exact List.nil_suffix
  | get ho =>
      have hread := h.read (List.mem_of_getElem? ho)
      exact h.setObserver hread
  | read ho hreads => exact h.reads ho hreads

theorem linked_of_run (hF : W.Frames) (hW : W.Links R J) (hstart : J none t)
    (h : Run W.observed ok (W.start t) ls w) : Linked R J w := by
  refine h.invariant_of_run (I := Linked R J) ?_ ?_
  · exact ⟨.nil, hstart, by simp [Writer.start]⟩
  · intro ls w label w' hrun ih _ hs
    exact ih.step hF hW (known_of_run hF hrun) (step_cases hs)

/-! ## Both together -/

/-- What an observer has read since it missed something goes along the edges of `R`. Once there is
nothing left to read and `set` is not half done, it knows the status. -/
structure Observes (R : Except ε σ → Except ε σ → Prop) (W : Writer τ ℓ σ ε) (w : World τ σ ε)
    (o : Observer σ ε) : Prop where
  path : o.read.IsChain R
  current : ∀ ⦃s⦄, o.known = some s → (w.status.recv o.next).1 = .empty → w.unsent = none →
    s = W.status w.task

theorem observes_of_run (hF : W.Frames) (hW : W.Links R J) (hstart : J none t)
    (h : Run W.observed ok (W.start t) ls w) (ho : o ∈ w.observers) : Observes R W w o := by
  have hknown := known_of_run hF h
  have hlinked := linked_of_run hF hW hstart h
  constructor
  · have hsent : w.status.tx.sent.IsChain R := hlinked.chain.left_of_append
    exact (hsent.take _).suffix (hlinked.read ho)
  · intro s hs hempty hunsent
    have hfollow := hknown.known ho hs hunsent
    rw [List.drop_eq_nil_of_le (BroadcastQueue.recv_empty_iff.mp hempty)] at hfollow
    exact hfollow.trans hknown.agrees

end PhoenixChannels.Statuses
