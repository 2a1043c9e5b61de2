import Mathlib.Data.List.Nodup

/-!
# Histories

Lists that grow at the end: what holds of each entry after the ones before it, and names that are
drawn one by one.
-/

universe u v

namespace History

variable {α : Type u} {β : Type v}

/-! ## What holds of each entry -/

/-- `P` holds of each entry of the history with those before it. -/
def Always (P : List α → α → Prop) (l : List α) : Prop :=
  ∀ before a after, l = before ++ a :: after → P before a

variable {P : List α → α → Prop} {l : List α} {a : α}

theorem Always.nil : Always P [] := by
  intro before a after h
  simp at h

theorem Always.append (h : Always P l) (ha : P l a) : Always P (l ++ [a]) := by
  intro before a' after hl
  rcases List.eq_nil_or_concat after with rfl | ⟨rest, last, rfl⟩
  · obtain ⟨rfl, hlast⟩ := List.append_inj' hl rfl
    obtain rfl := List.singleton_inj.mp hlast
    exact ha
  · have hsplit : l ++ [a] = (before ++ a' :: rest) ++ [last] := by simpa using hl
    obtain ⟨rfl, _⟩ := List.append_inj' hsplit rfl
    exact h before a' rest rfl

theorem Always.append_iff : Always P (l ++ [a]) ↔ Always P l ∧ P l a := by
  constructor
  · intro h
    refine ⟨fun before a' after hl => h before a' (after ++ [a]) ?_, h l a [] rfl⟩
    simp [hl]
  · intro h
    exact h.1.append h.2

theorem Always.of_append {l' : List α} (h : Always P (l ++ l')) : Always P l := by
  intro before a after hl
  exact h before a (after ++ l') (by simp [hl])

theorem always_iff_getElem? :
    Always P l ↔ ∀ i < l.length, ∀ a, (l)[i]? = some a → P (l.take i) a := by
  constructor
  · intro h i hi a ha
    obtain ⟨_, rfl⟩ := List.getElem?_eq_some_iff.mp ha
    exact h _ _ (l.drop (i + 1)) (by simp)
  · rintro h before a after rfl
    simpa using h before.length (by simp) a (by simp)

instance [∀ before a, Decidable (P before a)] : Decidable (Always P l) :=
  decidable_of_iff (∀ i < l.length, ∀ a ∈ (l)[i]?, P (l.take i) a) always_iff_getElem?.symm

/-! ## Names that are drawn -/

/-- `l` names, by `f`, some of the things that were drawn, each of them once. -/
structure Drawn (f : β → α) (l : List α) (drawn : List β) : Prop where
  known : ∀ a ∈ l, ∃ b ∈ drawn, a = f b
  once : l.Nodup

variable {f : β → α} {drawn : List β}

theorem Drawn.nil : Drawn f [] drawn where
  known := by simp
  once := List.nodup_nil

theorem Drawn.append {new : List α} {b? : Option β} (h : Drawn f l drawn)
    (hf : ∀ b b', f b = f b' → b = b') (hfresh : ∀ b, b? = some b → b ∉ drawn)
    (hnew : new = [] ∨ ∃ b, b? = some b ∧ new = [f b]) :
    Drawn f (l ++ new) (drawn ++ b?.toList) := by
  rcases hnew with rfl | ⟨b, rfl, rfl⟩
  · rw [List.append_nil]
    refine ⟨fun a ha => ?_, h.once⟩
    obtain ⟨b, hb, rfl⟩ := h.known a ha
    exact ⟨b, List.mem_append_left _ hb, rfl⟩
  · constructor
    · intro a ha
      rcases List.mem_append.mp ha with ha | ha
      · obtain ⟨b', hb', rfl⟩ := h.known a ha
        exact ⟨b', List.mem_append_left _ hb', rfl⟩
      · exact ⟨b, by simp, List.mem_singleton.mp ha⟩
    · refine List.nodup_append.mpr ⟨h.once, List.nodup_singleton _, ?_⟩
      rintro a ha a' ha' rfl
      obtain ⟨b', hb', hab⟩ := h.known a ha
      have hbb' := hf b b' ((List.mem_singleton.mp ha').symm.trans hab)
      exact hfresh b rfl (hbb' ▸ hb')

theorem index_eq_of_nodup {f : α → Option β} {l : List α} {i j : Nat} {a a' : α} {b : β}
    (h : (l.filterMap f).Nodup) (hi : l[i]? = some a) (hj : l[j]? = some a')
    (ha : f a = some b) (ha' : f a' = some b) : i = j := by
  have hpairs := List.pairwise_iff_getElem.mp (List.pairwise_filterMap.mp h)
  obtain ⟨hi', rfl⟩ := List.getElem?_eq_some_iff.mp hi
  obtain ⟨hj', rfl⟩ := List.getElem?_eq_some_iff.mp hj
  rcases Nat.lt_trichotomy i j with hlt | heq | hgt
  · exact absurd rfl (hpairs i j hi' hj' hlt b ha b ha')
  · exact heq
  · exact absurd rfl (hpairs j i hj' hi' hgt b ha' b ha)

end History
