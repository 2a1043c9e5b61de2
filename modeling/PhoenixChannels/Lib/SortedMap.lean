import Mathlib.Data.List.Sort

/-!
# Sorted maps

A map whose keys have an order, as the list of its entries by that order, and what comes of the
entries of another map when they are inserted one after the other.
-/

namespace SortedMap

variable {κ α : Type*} {entries other : List (κ × α)} {key : κ} {value : α}

/-- Each key is there once. -/
def KeysDistinct (entries : List (κ × α)) : Prop := (entries.map Prod.fst).Nodup

instance [DecidableEq κ] : Decidable (KeysDistinct entries) :=
  inferInstanceAs (Decidable (List.Nodup _))

theorem KeysDistinct.nodup (h : KeysDistinct entries) : entries.Nodup := h.of_map

theorem keysDistinct_cons {e : κ × α} :
    KeysDistinct (e :: entries) ↔ e.1 ∉ entries.map Prod.fst ∧ KeysDistinct entries := by
  simp only [KeysDistinct, List.map_cons, List.nodup_cons]

/-- A map has a value for a key if it has the entry. -/
theorem KeysDistinct.lookup_eq_some [BEq κ] [LawfulBEq κ] (h : KeysDistinct entries)
    (hmem : (key, value) ∈ entries) : entries.lookup key = some value := by
  induction entries with
  | nil => cases hmem
  | cons e rest ih =>
      obtain ⟨hnew, hrest⟩ := keysDistinct_cons.mp h
      rcases List.mem_cons.mp hmem with rfl | hmem
      · exact List.lookup_cons_self
      · have hne : key ≠ e.1 := by
          rintro rfl
          exact hnew (List.mem_map.mpr ⟨_, hmem, rfl⟩)
        rw [List.lookup_cons, beq_false_of_ne hne]
        exact ih hrest hmem

theorem mem_of_lookup_eq_some [BEq κ] [LawfulBEq κ] (h : entries.lookup key = some value) :
    (key, value) ∈ entries := by
  obtain ⟨before, after, rfl, _⟩ := List.lookup_eq_some_iff.mp h
  simp

/-- Two maps of one size are the same map when one has all entries of the other. -/
theorem KeysDistinct.perm_of_subset (h : KeysDistinct entries) (hsubset : entries ⊆ other)
    (hlength : other.length ≤ entries.length) : entries.Perm other :=
  (List.subperm_of_subset h.nodup hsubset).perm_of_length_le hlength

variable [LinearOrder κ]

/-- The entries come in the order of their keys. -/
def Sorted (entries : List (κ × α)) : Prop := (entries.map Prod.fst).Pairwise (· < ·)

instance : Decidable (Sorted entries) := inferInstanceAs (Decidable (List.Pairwise _ _))

theorem Sorted.keysDistinct (h : Sorted entries) : KeysDistinct entries := List.Pairwise.imp ne_of_lt h

/-- A map has one sorted list of entries. -/
theorem Sorted.eq_of_perm (h : Sorted entries) (h' : Sorted other) (hperm : entries.Perm other) :
    entries = other := by
  have hless : entries.Pairwise (fun e e' => e.1 < e'.1) := List.pairwise_map.mp h
  have hless' : other.Pairwise (fun e e' => e.1 < e'.1) := List.pairwise_map.mp h'
  refine List.Perm.eq_of_pairwise ?_ hless hless' hperm
  intro e e' _ _ hlt hgt
  exact absurd hlt hgt.asymm

/-! ## Inserting entries -/

/-- `map.insert(key, value)` -/
def insert (key : κ) (value : α) : List (κ × α) → List (κ × α)
  | [] => [(key, value)]
  | e :: rest =>
      if key < e.1 then (key, value) :: e :: rest
      else if key = e.1 then (key, value) :: rest
      else e :: insert key value rest

theorem perm_insert (hnew : key ∉ entries.map Prod.fst) :
    (insert key value entries).Perm ((key, value) :: entries) := by
  induction entries with
  | nil => exact .refl _
  | cons e rest ih =>
      obtain ⟨hne, hnew⟩ := not_or.mp (List.mem_cons.not.mp hnew)
      simp only [insert, if_neg hne]
      split
      · exact .refl _
      · exact ((ih hnew).cons e).trans (.swap _ _ _)

theorem mem_keys_insert {k : κ} (h : k ∈ (insert key value entries).map Prod.fst) :
    k = key ∨ k ∈ entries.map Prod.fst := by
  induction entries with
  | nil => exact .inl (List.mem_singleton.mp h)
  | cons e rest ih =>
      simp only [insert] at h
      split at h
      · exact List.mem_cons.mp h
      · split at h
        · exact (List.mem_cons.mp h).imp_right (List.mem_cons_of_mem _)
        · rcases List.mem_cons.mp h with rfl | h
          · exact .inr List.mem_cons_self
          · exact (ih h).imp_right (List.mem_cons_of_mem _)

theorem Sorted.insert (h : Sorted entries) : Sorted (insert key value entries) := by
  induction entries with
  | nil => exact List.pairwise_singleton _ _
  | cons e rest ih =>
      obtain ⟨hfirst, hrest⟩ := List.pairwise_cons.mp h
      simp only [SortedMap.insert]
      split
      · rename_i hlt
        refine List.pairwise_cons.mpr ⟨fun k hk => ?_, h⟩
        rcases List.mem_cons.mp hk with rfl | hk
        · exact hlt
        · exact hlt.trans (hfirst k hk)
      · split
        · rename_i heq
          exact List.pairwise_cons.mpr ⟨fun k hk => heq ▸ hfirst k hk, hrest⟩
        · rename_i hnlt hne
          refine List.pairwise_cons.mpr ⟨fun k hk => ?_, ih hrest⟩
          rcases mem_keys_insert hk with rfl | hk
          · exact lt_of_le_of_ne (not_lt.mp hnlt) (Ne.symm hne)
          · exact hfirst k hk

/-- All entries of a map, inserted in the order in which it gives them. -/
def ofEntries (entries : List (κ × α)) : List (κ × α) :=
  entries.foldl (fun map e => insert e.1 e.2 map) []

theorem sorted_foldl (h : Sorted other) :
    Sorted (entries.foldl (fun map e => insert e.1 e.2 map) other) := by
  induction entries generalizing other with
  | nil => exact h
  | cons e rest ih => exact ih h.insert

theorem sorted_ofEntries : Sorted (ofEntries entries) := sorted_foldl List.Pairwise.nil

theorem perm_foldl (h : KeysDistinct (entries ++ other)) :
    (entries.foldl (fun map e => insert e.1 e.2 map) other).Perm (entries ++ other) := by
  induction entries generalizing other with
  | nil => exact .refl _
  | cons e rest ih =>
      rw [List.cons_append] at h
      obtain ⟨hnew, hrest⟩ := keysDistinct_cons.mp h
      have hperm : (insert e.1 e.2 other).Perm (e :: other) := by
        refine perm_insert fun hmem => hnew ?_
        rw [List.map_append]
        exact List.mem_append_right _ hmem
      have hall : (rest ++ insert e.1 e.2 other).Perm (e :: (rest ++ other)) :=
        (hperm.append_left rest).trans List.perm_middle
      refine (ih ?_).trans hall
      exact (hall.map Prod.fst).nodup_iff.mpr h

theorem KeysDistinct.perm_ofEntries (h : KeysDistinct entries) : (ofEntries entries).Perm entries := by
  have h' : KeysDistinct (entries ++ []) := by simpa using h
  simpa [ofEntries] using perm_foldl h'

/-- The sorted map comes of its entries in any order. -/
theorem Sorted.eq_ofEntries (h : Sorted entries) (hperm : entries.Perm other) :
    ofEntries other = entries := by
  have hdistinct : KeysDistinct other := (hperm.map Prod.fst).nodup_iff.mp h.keysDistinct
  exact sorted_ofEntries.eq_of_perm h (hdistinct.perm_ofEntries.trans hperm.symm)

end SortedMap
