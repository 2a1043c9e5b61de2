import Mathlib.Data.List.AList
import Mathlib.Data.Prod.Basic

/-!
# Maps of maps

A two-level and a three-level finite map whose removals drop the inner maps they empty.
`find` reads them as flat maps over pairs and triples of keys.
-/

/-- A finite map. -/
abbrev Dict (α : Type*) (β : Type*) := AList (fun _ : α => β)

namespace Dict

variable {α β : Type*}

def isEmpty (m : Dict α β) : Bool := m.entries.isEmpty

def values (m : Dict α β) : List β := m.entries.map (·.2)

theorem lookup_of_isEmpty [DecidableEq α] {m : Dict α β} (h : m.isEmpty = true) (a : α) :
    m.lookup a = none := by
  obtain ⟨es, hnd⟩ := m
  cases es with
  | nil => rfl
  | cons e es => simp [isEmpty] at h

theorem lookup_erase_eq [DecidableEq α] (m : Dict α β) (a a' : α) :
    (m.erase a).lookup a' = if a' = a then none else m.lookup a' := by
  split
  · subst a'; exact AList.lookup_erase a m
  · exact AList.lookup_erase_ne ‹_›

theorem lookup_insert_eq [DecidableEq α] (m : Dict α β) (a a' : α) (b : β) :
    (m.insert a b).lookup a' = if a' = a then some b else m.lookup a' := by
  split
  · subst a'; exact AList.lookup_insert m
  · exact AList.lookup_insert_ne ‹_›

theorem mem_values [DecidableEq α] {m : Dict α β} {b : β} :
    b ∈ m.values ↔ ∃ a, m.lookup a = some b := by
  simp only [values, List.mem_map]
  constructor
  · rintro ⟨⟨a, b'⟩, hm, rfl⟩
    exact ⟨a, AList.mem_lookup_iff.mpr hm⟩
  · rintro ⟨a, ha⟩
    exact ⟨⟨a, b⟩, AList.mem_lookup_iff.mp ha, rfl⟩

theorem nodup_values [DecidableEq α] {m : Dict α β}
    (h : ∀ a a' b, m.lookup a = some b → m.lookup a' = some b → a = a') : m.values.Nodup := by
  refine List.Nodup.map_on ?_ m.nodupKeys.nodup
  rintro ⟨a, b⟩ he ⟨a', b'⟩ he' heq
  have heq : b = b' := heq
  subst heq
  obtain rfl := h a a' b (AList.mem_lookup_iff.mpr he) (AList.mem_lookup_iff.mpr he')
  rfl

theorem nodup_pairs {κ : Type*} (m : Dict α β) {keys : β → List κ} (h : ∀ b, (keys b).Nodup) :
    (m.entries.flatMap fun e => (keys e.2).map (Prod.mk e.1)).Nodup := by
  refine List.nodup_flatMap.mpr ⟨fun e _ => (h e.2).map (Prod.mk_right_injective e.1), ?_⟩
  refine (List.nodupKeys_iff_pairwise.mp m.nodupKeys).imp ?_
  intro e e' hne k hk hk'
  obtain ⟨_, _, rfl⟩ := List.mem_map.mp hk
  obtain ⟨_, _, heq⟩ := List.mem_map.mp hk'
  exact hne (congrArg Prod.fst heq).symm

/-- The list holds each entry of a flat map once. -/
structure Listing {κ γ : Type*} (find : κ → Option γ) (entries : List (κ × γ)) : Prop where
  mem {k : κ} {c : γ} : (k, c) ∈ entries ↔ find k = some c
  nodup : (entries.map Prod.fst).Nodup

/-- Only the order is not determined. -/
theorem Listing.perm {κ γ : Type*} {find : κ → Option γ} {es es' : List (κ × γ)}
    (h : Listing find es) (h' : Listing find es') : es.Perm es' :=
  (List.perm_ext_iff_of_nodup h.nodup.of_map h'.nodup.of_map).mpr fun _ => h.mem.trans h'.mem.symm

/-- A map that has one key more has one entry more. -/
theorem Listing.insert {κ γ : Type*} {find find' : κ → Option γ} {es es' : List (κ × γ)} {k : κ}
    {c : γ} (h : Listing find es) (h' : Listing find' es') (hnew : find k = none)
    (hk : find' k = some c) (hother : ∀ k', k' ≠ k → find' k' = find k') :
    es'.Perm ((k, c) :: es) := by
  have hnotin : k ∉ es.map Prod.fst := by
    intro hmem
    obtain ⟨⟨_, c'⟩, he, rfl⟩ := List.mem_map.mp hmem
    cases (h.mem.mp he).symm.trans hnew
  refine h'.perm ⟨?_, List.nodup_cons.mpr ⟨hnotin, h.nodup⟩⟩
  intro k' c'
  by_cases heq : k' = k
  · subst heq
    have habsent : (k', c') ∉ es := fun he => hnotin (List.mem_map_of_mem he)
    simp [hk, habsent, eq_comm]
  · rw [hother k' heq, ← h.mem]
    simp [heq]

end Dict

/-! ## Two levels -/

abbrev NestedMap (α : Type*) (β : Type*) (γ : Type*) := Dict α (Dict β γ)

namespace NestedMap

variable {α β γ : Type*} [DecidableEq α] [DecidableEq β]

def find (m : NestedMap α β γ) (a : α) (b : β) : Option γ :=
  (m.lookup a).bind (fun inner => inner.lookup b)

/-- `m.entry(a).or_default().insert(b, c)` -/
def put (m : NestedMap α β γ) (a : α) (b : β) (c : γ) : NestedMap α β γ :=
  m.insert a (AList.insert b c ((m.lookup a).getD ∅))

/-- Removes the value under both keys, and the inner map too when it was the last one there. -/
def remove (m : NestedMap α β γ) (a : α) (b : β) : Option γ × NestedMap α β γ :=
  match m.lookup a with
  | none => (none, m)
  | some inner =>
      match inner.lookup b with
      | none => (none, m)
      | some c =>
          let inner' := inner.erase b
          (some c, if Dict.isEmpty inner' then m.erase a else m.insert a inner')

def values (m : NestedMap α β γ) : List γ := (Dict.values m).flatMap Dict.values

@[simp] theorem find_empty (a : α) (b : β) : find (∅ : NestedMap α β γ) a b = none := rfl

theorem find_put (m : NestedMap α β γ) (a a' : α) (b b' : β) (c : γ) :
    (m.put a b c).find a' b' = if a' = a ∧ b' = b then some c else m.find a' b' := by
  simp only [find, put, Dict.lookup_insert_eq]
  by_cases ha : a' = a
  · subst a'
    simp only [↓reduceIte, Option.bind_some, true_and, Dict.lookup_insert_eq]
    split
    · rfl
    · cases m.lookup a <;> rfl
  · simp [ha]

theorem remove_fst (m : NestedMap α β γ) (a : α) (b : β) : (m.remove a b).1 = m.find a b := by
  simp only [remove, find]
  cases h : m.lookup a with
  | none => rfl
  | some inner => cases h' : inner.lookup b <;> simp [h']

theorem find_remove (m : NestedMap α β γ) (a a' : α) (b b' : β) :
    (m.remove a b).2.find a' b' = if a' = a ∧ b' = b then none else m.find a' b' := by
  unfold remove
  cases h : m.lookup a with
  | none =>
      simp only []
      split
      · rename_i hk
        obtain ⟨rfl, rfl⟩ := hk
        simp [find, h]
      · rfl
  | some inner =>
      cases h' : inner.lookup b with
      | none =>
          simp only [h']
          split
          · rename_i hk
            obtain ⟨rfl, rfl⟩ := hk
            simp [find, h, h']
          · rfl
      | some c =>
          simp only [h']
          by_cases ha : a' = a
          · subst a'
            by_cases he : Dict.isEmpty (inner.erase b) = true
            · have hb' : ∀ b', b' ≠ b → inner.lookup b' = none := by
                intro b' hne
                rw [← AList.lookup_erase_ne hne]
                exact Dict.lookup_of_isEmpty he b'
              simp only [he, ↓reduceIte, find, AList.lookup_erase, Option.bind_none, h,
                Option.bind_some, true_and]
              split
              · rfl
              · exact (hb' b' ‹_›).symm
            · simp [he, find, h, Dict.lookup_erase_eq]
          · split <;> simp [find, ha]

theorem remove_of_find_none {m : NestedMap α β γ} {a : α} {b : β} (h : m.find a b = none) :
    m.remove a b = (none, m) := by
  unfold find at h
  unfold remove
  cases ha : m.lookup a with
  | none => rfl
  | some inner =>
      rw [ha] at h
      have hb : AList.lookup b inner = none := h
      simp only [hb]

/-- No inner map is empty. -/
def Pruned (m : NestedMap α β γ) : Prop := ∀ a inner, m.lookup a = some inner → inner.isEmpty = false

omit [DecidableEq β] in
theorem pruned_empty : Pruned (∅ : NestedMap α β γ) := by
  intro a inner h
  cases h

theorem Pruned.put {m : NestedMap α β γ} (h : m.Pruned) (a : α) (b : β) (c : γ) :
    (m.put a b c).Pruned := by
  intro a' inner hinner
  rw [NestedMap.put, Dict.lookup_insert_eq] at hinner
  split at hinner
  · cases hinner
    rfl
  · exact h a' inner hinner

theorem Pruned.remove {m : NestedMap α β γ} (h : m.Pruned) (a : α) (b : β) :
    (m.remove a b).2.Pruned := by
  intro a' inner' hinner
  unfold NestedMap.remove at hinner
  split at hinner
  · exact h a' inner' hinner
  split at hinner
  · exact h a' inner' hinner
  -- the inner map that loses an entry stays only if it keeps another one
  simp only at hinner
  split at hinner
  · rw [Dict.lookup_erase_eq] at hinner
    split at hinner
    · cases hinner
    · exact h a' inner' hinner
  · rename_i hnonempty
    rw [Dict.lookup_insert_eq] at hinner
    split at hinner
    · cases hinner
      simpa using hnonempty
    · exact h a' inner' hinner

/-- The entries under both keys, in the order in which the inner maps are drained. -/
def flatten (m : NestedMap α β γ) : List ((α × β) × γ) :=
  m.entries.flatMap fun e => e.2.entries.map fun f => ((e.1, f.1), f.2)

omit [DecidableEq α] [DecidableEq β] in
theorem values_eq (m : NestedMap α β γ) : m.values = m.flatten.map Prod.snd := by
  simp [values, flatten, Dict.values, List.map_flatMap, List.flatMap_map, Function.comp_def]

theorem listing_flatten (m : NestedMap α β γ) :
    Dict.Listing (fun k => m.find k.1 k.2) m.flatten where
  mem {k c} := by
    simp only [flatten, List.mem_flatMap, List.mem_map, find, Option.bind_eq_some_iff]
    constructor
    · rintro ⟨e, he, f, hf, heq⟩
      obtain ⟨rfl, rfl⟩ := Prod.mk.inj heq
      exact ⟨e.2, AList.mem_lookup_iff.mpr he, AList.mem_lookup_iff.mpr hf⟩
    · rintro ⟨inner, ha, hb⟩
      exact ⟨⟨k.1, inner⟩, AList.mem_lookup_iff.mp ha, ⟨k.2, c⟩, AList.mem_lookup_iff.mp hb, rfl⟩
  nodup := by
    have hkeys := Dict.nodup_pairs m fun inner => inner.nodupKeys
    simpa [flatten, List.map_flatMap, List.keys, Function.comp_def] using hkeys

theorem mem_values {m : NestedMap α β γ} {c : γ} :
    c ∈ m.values ↔ ∃ a b, m.find a b = some c := by
  simp [values_eq, m.listing_flatten.mem]

theorem nodup_values {m : NestedMap α β γ}
    (h : ∀ a b a' b' c, m.find a b = some c → m.find a' b' = some c → a = a' ∧ b = b') :
    m.values.Nodup := by
  rw [values_eq]
  refine List.Nodup.map_on ?_ m.listing_flatten.nodup.of_map
  rintro ⟨⟨a, b⟩, c⟩ he ⟨⟨a', b'⟩, c'⟩ he' heq
  have heq : c = c' := heq
  subst heq
  obtain ⟨rfl, rfl⟩ := h a b a' b' c (m.listing_flatten.mem.mp he) (m.listing_flatten.mem.mp he')
  rfl

end NestedMap

/-! ## Three levels -/

abbrev NestedMap₃ (α : Type*) (β : Type*) (γ : Type*) (δ : Type*) := Dict α (NestedMap β γ δ)

namespace NestedMap₃

variable {α β γ δ : Type*} [DecidableEq α] [DecidableEq β] [DecidableEq γ]

def find (m : NestedMap₃ α β γ δ) (a : α) (b : β) (c : γ) : Option δ :=
  (m.lookup a).bind (fun inner => NestedMap.find inner b c)

/-- `m.entry(a).or_default().entry(b).or_default().insert(c, d)` -/
def put (m : NestedMap₃ α β γ δ) (a : α) (b : β) (c : γ) (d : δ) : NestedMap₃ α β γ δ :=
  m.insert a (NestedMap.put ((m.lookup a).getD ∅) b c d)

/-- Removes the value under the three keys, and each inner map that this empties. -/
def remove (m : NestedMap₃ α β γ δ) (a : α) (b : β) (c : γ) : Option δ × NestedMap₃ α β γ δ :=
  match m.lookup a with
  | none => (none, m)
  | some inner =>
      match NestedMap.remove inner b c with
      | (none, _) => (none, m)
      | (some d, inner') =>
          (some d, if Dict.isEmpty inner' then m.erase a else m.insert a inner')

def values (m : NestedMap₃ α β γ δ) : List δ := (Dict.values m).flatMap NestedMap.values

@[simp] theorem find_empty (a : α) (b : β) (c : γ) :
    find (∅ : NestedMap₃ α β γ δ) a b c = none := rfl

theorem find_put (m : NestedMap₃ α β γ δ) (a a' : α) (b b' : β) (c c' : γ) (d : δ) :
    (m.put a b c d).find a' b' c' =
      if a' = a ∧ b' = b ∧ c' = c then some d else m.find a' b' c' := by
  simp only [find, put, Dict.lookup_insert_eq]
  by_cases ha : a' = a
  · subst a'
    simp only [↓reduceIte, Option.bind_some, true_and, NestedMap.find_put]
    split
    · rfl
    · cases m.lookup a <;> rfl
  · simp [ha]

theorem remove_fst (m : NestedMap₃ α β γ δ) (a : α) (b : β) (c : γ) :
    (m.remove a b c).1 = m.find a b c := by
  simp only [remove, find]
  cases h : m.lookup a with
  | none => rfl
  | some inner =>
      simp only [Option.bind_some]
      rw [← NestedMap.remove_fst]
      rcases NestedMap.remove inner b c with ⟨_ | d, inner'⟩ <;> rfl

theorem find_remove (m : NestedMap₃ α β γ δ) (a a' : α) (b b' : β) (c c' : γ) :
    (m.remove a b c).2.find a' b' c' =
      if a' = a ∧ b' = b ∧ c' = c then none else m.find a' b' c' := by
  unfold remove
  cases h : m.lookup a with
  | none =>
      simp only []
      split
      · rename_i hk
        obtain ⟨rfl, rfl, rfl⟩ := hk
        simp [find, h]
      · rfl
  | some inner =>
      have hfst := NestedMap.remove_fst inner b c
      have hsnd := fun b' c' => NestedMap.find_remove inner b b' c c'
      rcases hr : NestedMap.remove inner b c with ⟨_ | d, inner'⟩
      · rw [hr] at hfst
        simp only [hr]
        split
        · rename_i hk
          obtain ⟨rfl, rfl, rfl⟩ := hk
          simp [find, h, ← hfst]
        · rfl
      · rw [hr] at hsnd
        simp only [hr]
        by_cases ha : a' = a
        · subst a'
          by_cases he : Dict.isEmpty inner' = true
          · have hnone : NestedMap.find inner' b' c' = none := by
              simp [NestedMap.find, Dict.lookup_of_isEmpty he]
            rw [hsnd] at hnone
            simp only [he, ↓reduceIte, find, AList.lookup_erase, Option.bind_none, h,
              Option.bind_some, true_and]
            split
            · rfl
            · rename_i hk; simpa [hk] using hnone.symm
          · simp [he, find, h, hsnd]
        · split <;> simp [find, ha]

theorem remove_of_find_none {m : NestedMap₃ α β γ δ} {a : α} {b : β} {c : γ}
    (h : m.find a b c = none) : m.remove a b c = (none, m) := by
  unfold find at h
  unfold remove
  cases ha : m.lookup a with
  | none => rfl
  | some inner =>
      rw [ha] at h
      have hb : NestedMap.find inner b c = none := h
      simp only [NestedMap.remove_of_find_none hb]

/-- No inner map is empty, on either level. -/
def Pruned (m : NestedMap₃ α β γ δ) : Prop :=
  ∀ a inner, m.lookup a = some inner → inner.isEmpty = false ∧ NestedMap.Pruned inner

omit [DecidableEq γ] in
theorem pruned_empty : Pruned (∅ : NestedMap₃ α β γ δ) := by
  intro a inner h
  cases h

theorem Pruned.put {m : NestedMap₃ α β γ δ} (h : m.Pruned) (a : α) (b : β) (c : γ) (d : δ) :
    (m.put a b c d).Pruned := by
  intro a' inner hinner
  rw [NestedMap₃.put, Dict.lookup_insert_eq] at hinner
  split at hinner
  · cases hinner
    refine ⟨rfl, NestedMap.Pruned.put ?_ b c d⟩
    cases ha : m.lookup a with
    | none => exact NestedMap.pruned_empty
    | some inner => exact (h a inner ha).2
  · exact h a' inner hinner

theorem Pruned.remove {m : NestedMap₃ α β γ δ} (h : m.Pruned) (a : α) (b : β) (c : γ) :
    (m.remove a b c).2.Pruned := by
  intro a' inner' hinner
  unfold NestedMap₃.remove at hinner
  split at hinner
  · exact h a' inner' hinner
  rename_i inner ha
  split at hinner
  · exact h a' inner' hinner
  rename_i d kept hremove
  have hkept : kept.Pruned := by
    have hpruned := (h a inner ha).2.remove b c
    rwa [hremove] at hpruned
  simp only at hinner
  split at hinner
  · rw [Dict.lookup_erase_eq] at hinner
    split at hinner
    · cases hinner
    · exact h a' inner' hinner
  · rename_i hnonempty
    rw [Dict.lookup_insert_eq] at hinner
    split at hinner
    · cases hinner
      exact ⟨by simpa using hnonempty, hkept⟩
    · exact h a' inner' hinner

/-- The entries under the three keys, in the order in which the inner maps are drained. -/
def flatten (m : NestedMap₃ α β γ δ) : List ((α × β × γ) × δ) :=
  m.entries.flatMap fun e => (NestedMap.flatten e.2).map fun f => ((e.1, f.1), f.2)

omit [DecidableEq α] [DecidableEq β] [DecidableEq γ] in
theorem values_eq (m : NestedMap₃ α β γ δ) : m.values = m.flatten.map Prod.snd := by
  simp [values, flatten, Dict.values, NestedMap.values_eq, List.map_flatMap, List.flatMap_map,
    Function.comp_def]

theorem listing_flatten (m : NestedMap₃ α β γ δ) :
    Dict.Listing (fun k => m.find k.1 k.2.1 k.2.2) m.flatten where
  mem {k d} := by
    simp only [flatten, List.mem_flatMap, List.mem_map, find, Option.bind_eq_some_iff]
    constructor
    · rintro ⟨e, he, f, hf, heq⟩
      obtain ⟨rfl, rfl⟩ := Prod.mk.inj heq
      exact ⟨e.2, AList.mem_lookup_iff.mpr he, (NestedMap.listing_flatten e.2).mem.mp hf⟩
    · rintro ⟨inner, ha, hb⟩
      exact ⟨⟨k.1, inner⟩, AList.mem_lookup_iff.mp ha, (k.2, d),
        (NestedMap.listing_flatten inner).mem.mpr hb, rfl⟩
  nodup := by
    have hkeys := Dict.nodup_pairs m fun inner => (NestedMap.listing_flatten inner).nodup
    simpa [flatten, List.map_flatMap, Function.comp_def] using hkeys

theorem mem_values {m : NestedMap₃ α β γ δ} {d : δ} :
    d ∈ m.values ↔ ∃ a b c, m.find a b c = some d := by
  simp [values_eq, m.listing_flatten.mem]

end NestedMap₃
