import Mathlib.Data.List.Nodup

/-!
# Lists as sets of references

Items that are told apart by a reference: two items with the same reference stand for the same thing,
whatever else they hold.
-/

namespace Referenced

variable {μ ρ : Type*} [DecidableEq ρ] (ref : μ → ρ)

/-- The items whose reference no item of `ys` has. -/
def minus (xs ys : List μ) : List μ := xs.filter (fun x => ref x ∉ ys.map ref)

/-- The items whose reference an item of `ys` has. -/
def inter (xs ys : List μ) : List μ := xs.filter (fun x => ref x ∈ ys.map ref)

/-- The joined items before those they do not replace, and of all these the ones that do not leave. -/
def update (current joined left : List μ) : List μ :=
  minus ref (joined ++ minus ref current joined) left

variable {ref} {xs ys zs current joined left new : List μ} {x : μ} {r : ρ}

theorem mem_minus : x ∈ minus ref xs ys ↔ x ∈ xs ∧ ref x ∉ ys.map ref := by
  simp [minus]

theorem mem_inter : x ∈ inter ref xs ys ↔ x ∈ xs ∧ ref x ∈ ys.map ref := by
  simp [inter]

@[simp] theorem minus_nil : minus ref xs [] = xs := by
  simp [minus]

@[simp] theorem nil_minus : minus ref [] ys = [] := rfl

@[simp] theorem minus_self : minus ref xs xs = [] := by
  refine List.filter_eq_nil_iff.mpr fun x hx => ?_
  simpa using ⟨x, hx, rfl⟩

theorem minus_append : minus ref (xs ++ ys) zs = minus ref xs zs ++ minus ref ys zs :=
  List.filter_append ..

theorem minus_comm : minus ref (minus ref xs ys) zs = minus ref (minus ref xs zs) ys :=
  List.filter_comm _ _ _

theorem minus_eq_self (h : ∀ x ∈ xs, ref x ∉ ys.map ref) : minus ref xs ys = xs :=
  List.filter_eq_self.mpr fun x hx => by simpa using h x hx

theorem minus_minus_self : minus ref (minus ref xs ys) ys = minus ref xs ys :=
  minus_eq_self fun _ hx => (mem_minus.mp hx).2

theorem minus_eq_nil : minus ref xs ys = [] ↔ ∀ r ∈ xs.map ref, r ∈ ys.map ref := by
  simp [minus, List.filter_eq_nil_iff]

theorem update_update :
    update ref (update ref current joined left) joined left = update ref current joined left := by
  have hrest : minus ref (update ref current joined left) joined =
      minus ref (minus ref current joined) left := by
    rw [update, minus_comm, minus_append, minus_self, List.nil_append, minus_minus_self]
  rw [update, hrest, minus_append, minus_minus_self, update, minus_append]

theorem mem_update_refs : r ∈ (update ref current joined left).map ref ↔
    (r ∈ current.map ref ∨ r ∈ joined.map ref) ∧ r ∉ left.map ref := by
  simp only [update, List.mem_map, mem_minus, List.mem_append]
  constructor
  · rintro ⟨x, ⟨hx | ⟨hx, _⟩, hleft⟩, rfl⟩
    · exact ⟨.inr ⟨x, hx, rfl⟩, hleft⟩
    · exact ⟨.inl ⟨x, hx, rfl⟩, hleft⟩
  · rintro ⟨hr, hleft⟩
    by_cases hjoined : ∃ x ∈ joined, ref x = r
    · obtain ⟨x, hx, rfl⟩ := hjoined
      exact ⟨x, ⟨.inl hx, hleft⟩, rfl⟩
    · rcases hr with ⟨x, hx, rfl⟩ | hr
      · exact ⟨x, ⟨.inr ⟨hx, hjoined⟩, hleft⟩, rfl⟩
      · exact absurd hr hjoined

theorem nodup_update (hcurrent : (current.map ref).Nodup) (hjoined : (joined.map ref).Nodup) :
    ((update ref current joined left).map ref).Nodup := by
  refine List.Nodup.sublist (List.filter_sublist.map ref) ?_
  rw [List.map_append]
  refine List.Nodup.append hjoined (hcurrent.sublist (List.filter_sublist.map ref)) ?_
  intro r hr hr'
  obtain ⟨x, hx, rfl⟩ := List.mem_map.mp hr'
  exact (mem_minus.mp hx).2 hr

/-- The difference of two lists, applied as an update, keeps what both have and takes the rest from
the new one. -/
theorem update_minus : update ref current (minus ref new current) (minus ref current new) =
    minus ref new current ++ inter ref current new := by
  have hcurrent : minus ref current (minus ref new current) = current := by
    refine minus_eq_self fun x hx hmem => ?_
    obtain ⟨y, hy, heq⟩ := List.mem_map.mp hmem
    exact (mem_minus.mp hy).2 (heq ▸ List.mem_map_of_mem hx)
  have hjoined : minus ref (minus ref new current) (minus ref current new) =
      minus ref new current := by
    refine minus_eq_self fun x hx hmem => ?_
    obtain ⟨y, hy, heq⟩ := List.mem_map.mp hmem
    exact (mem_minus.mp hx).2 (heq ▸ List.mem_map_of_mem (mem_minus.mp hy).1)
  have hkept : minus ref current (minus ref current new) = inter ref current new := by
    refine List.filter_congr fun x hx => ?_
    have hleft : ref x ∈ (minus ref current new).map ref ↔ ref x ∉ new.map ref := by
      constructor
      · rintro hmem
        obtain ⟨y, hy, heq⟩ := List.mem_map.mp hmem
        exact heq ▸ (mem_minus.mp hy).2
      · intro hnew
        exact List.mem_map_of_mem (mem_minus.mpr ⟨hx, hnew⟩)
    simp only [hleft, not_not]
  rw [update, hcurrent, minus_append, hjoined, hkept]

theorem mem_synced_refs :
    r ∈ (minus ref new current ++ inter ref current new).map ref ↔ r ∈ new.map ref := by
  simp only [List.mem_map, List.mem_append, mem_minus, mem_inter]
  constructor
  · rintro ⟨x, ⟨hx, _⟩ | ⟨_, hx⟩, rfl⟩
    · exact ⟨x, hx, rfl⟩
    · exact hx
  · rintro ⟨x, hx, rfl⟩
    by_cases hcurrent : ∃ y ∈ current, ref y = ref x
    · obtain ⟨y, hy, heq⟩ := hcurrent
      exact ⟨y, .inr ⟨hy, x, hx, heq.symm⟩, heq⟩
    · exact ⟨x, .inl ⟨hx, hcurrent⟩, rfl⟩

theorem filter_synced (hr : r ∈ new.map ref) :
    (minus ref new current ++ inter ref current new).filter (fun x => ref x = r) =
      if r ∈ current.map ref then current.filter (fun x => ref x = r)
      else new.filter (fun x => ref x = r) := by
  rw [List.filter_append, minus, inter, List.filter_filter, List.filter_filter]
  split
  · rename_i hcurrent
    have hnone : new.filter (fun x => decide (ref x = r) && decide (ref x ∉ current.map ref)) =
        [] := by
      refine List.filter_eq_nil_iff.mpr fun x _ h => ?_
      simp only [Bool.and_eq_true, decide_eq_true_eq] at h
      exact h.2 (h.1 ▸ hcurrent)
    rw [hnone, List.nil_append]
    refine List.filter_congr fun x _ => ?_
    by_cases hx : ref x = r
    · simp only [hx, hr, decide_true, Bool.and_self]
    · simp [hx]
  · rename_i hcurrent
    have hnone : current.filter (fun x => decide (ref x = r) && decide (ref x ∈ new.map ref)) =
        [] := by
      refine List.filter_eq_nil_iff.mpr fun x hx h => ?_
      simp only [Bool.and_eq_true, decide_eq_true_eq] at h
      exact hcurrent (h.1 ▸ List.mem_map_of_mem hx)
    rw [hnone, List.append_nil]
    refine List.filter_congr fun x _ => ?_
    by_cases hx : ref x = r
    · simp only [hx, hcurrent, decide_true, not_false_eq_true, Bool.and_self]
    · simp [hx]

end Referenced
