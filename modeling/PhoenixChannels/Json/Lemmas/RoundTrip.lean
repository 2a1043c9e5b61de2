import PhoenixChannels.Json.Lemmas.Conversions

/-!
# Round trips between trees and values

Each conversion undoes the other one, up to what the types cannot tell apart: the order of the entries
of a `HashMap`, and the constructor of an integer that is not negative.
-/

namespace PhoenixChannels.Ffi

open SortedMap (KeysDistinct)

/-! ## Numbers -/

theorem toSerde_numberOf (n : SerdeNumber) : (numberOf n).toSerde = some n := by
  cases n with
  | posInt n => rfl
  | negInt i h => exact congrArg some (dif_pos h)
  | float f h => exact dif_pos h

theorem toUInt64_of_nonneg {i : Int64} (h : 0 ≤ i) : i.toUInt64 = .ofNat i.toInt.toNat := by
  have hlt : i.toInt < 2 ^ 63 := Int64.toInt_lt i
  rw [← UInt64.toNat_inj, Int64.toNat_toUInt64_of_le h, UInt64.toNat_ofNat', Int64.toNatClampNeg]
  omega

theorem canonical_of_toSerde {n : Number} {s : SerdeNumber} (h : n.toSerde = some s) :
    n.canonical = numberOf s := by
  cases n with
  | posInt pos =>
      cases h
      rfl
  | negInt neg =>
      cases h
      by_cases hneg : neg < 0
      · have hint : ¬ 0 ≤ neg.toInt := not_le.mpr (Int64.lt_iff_toInt_lt.mp hneg)
        rw [SerdeNumber.ofInt64, dif_pos hneg, Number.canonical, if_neg hint]
        rfl
      · have hnonneg : 0 ≤ neg := Int64.not_lt.mp hneg
        have hint : 0 ≤ neg.toInt := Int64.le_iff_toInt_le.mp hnonneg
        rw [SerdeNumber.ofInt64, dif_neg hneg, Number.canonical, if_pos hint, numberOf,
          toUInt64_of_nonneg hnonneg]
  | float f =>
      obtain ⟨hfinite, hs⟩ := Option.dite_none_right_eq_some.mp h
      cases hs
      rfl

/-! ## The entries of an object -/

theorem toEntries_cons {key : String} {json : JSON} {rest : List (String × JSON)}
    {converted : List (String × Value)} :
    JSON.toEntries ((key, json) :: rest) = some converted ↔
      ∃ value rest', json.toValue = some value ∧ JSON.toEntries rest = some rest' ∧
        converted = (key, value) :: rest' := by
  rw [JSON.toEntries]
  cases json.toValue <;> cases JSON.toEntries rest <;> simp [eq_comm]

theorem toEntries_keys {entries : List (String × JSON)} {converted : List (String × Value)}
    (h : JSON.toEntries entries = some converted) :
    converted.map Prod.fst = entries.map Prod.fst := by
  induction entries generalizing converted with
  | nil =>
      cases h
      rfl
  | cons e rest ih =>
      obtain ⟨value, rest', _, hrest, rfl⟩ := toEntries_cons.mp h
      rw [List.map_cons, List.map_cons, ih hrest]

theorem mem_toEntries {entries : List (String × JSON)} {converted : List (String × Value)}
    {key : String} {json : JSON} {value : Value} (h : JSON.toEntries entries = some converted)
    (hmem : (key, json) ∈ entries) (hvalue : json.toValue = some value) :
    (key, value) ∈ converted := by
  induction entries generalizing converted with
  | nil => cases hmem
  | cons e rest ih =>
      obtain ⟨value', rest', hvalue', hrest, rfl⟩ := toEntries_cons.mp h
      rcases List.mem_cons.mp hmem with rfl | hmem
      · cases hvalue.symm.trans hvalue'
        exact List.mem_cons_self
      · exact List.mem_cons_of_mem _ (ih hrest hmem)

/-- An object is converted that holds, under the keys of a map, trees of the values of the map. -/
theorem toEntries_of_lookup {entries : List (String × JSON)} {values : List (String × Value)}
    (hdistinct : KeysDistinct entries) (hvalues : KeysDistinct values)
    (hlength : entries.length = values.length)
    (h : ∀ e ∈ values, ∃ json, entries.lookup e.1 = some json ∧ json.toValue = some e.2) :
    ∃ converted, JSON.toEntries entries = some converted ∧ values.Perm converted := by
  have hkeys : (values.map Prod.fst).Perm (entries.map Prod.fst) := by
    refine (List.subperm_of_subset hvalues ?_).perm_of_length_le (by simp [hlength])
    intro key hkey
    obtain ⟨e, he, rfl⟩ := List.mem_map.mp hkey
    obtain ⟨json, hjson, _⟩ := h e he
    exact List.mem_map.mpr ⟨_, SortedMap.mem_of_lookup_eq_some hjson, rfl⟩
  have hfinite : ∀ e ∈ entries, e.2.isFinite = true := by
    intro e he
    obtain ⟨e', he', hkey⟩ := List.mem_map.mp (hkeys.mem_iff.mpr (List.mem_map_of_mem he))
    obtain ⟨json, hjson, hvalue⟩ := h e' he'
    have hsame : some e.2 = some json := (hdistinct.lookup_eq_some he).symm.trans (hkey ▸ hjson)
    cases hsame
    rw [← JSON.toValue_isSome, hvalue]
    rfl
  obtain ⟨converted, hconverted⟩ := Option.isSome_iff_exists.mp
    ((JSON.toEntries_isSome entries).trans (JSON.allEntriesFinite_iff.mpr hfinite))
  refine ⟨converted, hconverted, hvalues.perm_of_subset ?_ ?_⟩
  · rintro ⟨key, value⟩ he
    obtain ⟨json, hjson, hvalue⟩ := h _ he
    exact mem_toEntries hconverted (SortedMap.mem_of_lookup_eq_some hjson) hvalue
  · have hlengths := congrArg List.length (toEntries_keys hconverted)
    simp only [List.length_map] at hlengths
    exact le_of_eq (hlengths.trans hlength)

/-! ## Equality of trees -/

mutual

theorem eq_self (json : JSON) (h : json.keysDistinct = true) : json.eq json = true := by
  cases json with
  | array items => exact eqItems_self items h
  | object entries =>
      simp only [JSON.keysDistinct, Bool.and_eq_true, decide_eq_true_eq] at h
      simp only [JSON.eq, beq_self_eq_true, Bool.true_and]
      exact eqEntries_of_lookup entries h.2 entries fun e => h.1.lookup_eq_some
  | _ => simp [JSON.eq]

theorem eqItems_self (items : List JSON) (h : JSON.allKeysDistinct items = true) :
    JSON.eqItems items items = true := by
  cases items with
  | nil => rfl
  | cons json rest =>
      simp only [JSON.allKeysDistinct, Bool.and_eq_true] at h
      rw [JSON.eqItems, eq_self json h.1, eqItems_self rest h.2]
      rfl

theorem eqEntries_of_lookup (entries : List (String × JSON))
    (h : JSON.entriesKeysDistinct entries = true) (other : List (String × JSON))
    (hlookup : ∀ e ∈ entries, other.lookup e.1 = some e.2) :
    JSON.eqEntries entries other = true := by
  cases entries with
  | nil => rfl
  | cons e rest =>
      obtain ⟨key, json⟩ := e
      simp only [JSON.entriesKeysDistinct, Bool.and_eq_true] at h
      rw [JSON.eqEntries, hlookup _ List.mem_cons_self, Option.any_some, eq_self json h.1,
        eqEntries_of_lookup rest h.2 other fun e he => hlookup e (List.mem_cons_of_mem _ he)]
      rfl

end

/-! ## From a value and back -/

theorem keysDistinct_entriesOf {entries : List (String × Value)} (h : KeysDistinct entries) :
    KeysDistinct (entriesOf entries) := by
  rw [entriesOf_eq, KeysDistinct, List.map_map]
  exact h

mutual

theorem keysDistinct_treeOf (value : Value) (h : value.sorted = true) :
    (treeOf value).keysDistinct = true := by
  cases value with
  | array items => exact allKeysDistinct_treesOf items h
  | object entries =>
      simp only [Value.sorted, Bool.and_eq_true, decide_eq_true_eq] at h
      have hkeys := keysDistinct_entriesOf h.1.keysDistinct
      simp only [treeOf, JSON.keysDistinct, hkeys, decide_true, Bool.true_and]
      exact entriesKeysDistinct_entriesOf entries h.2
  | _ => rfl

theorem allKeysDistinct_treesOf (values : List Value) (h : Value.allSorted values = true) :
    JSON.allKeysDistinct (treesOf values) = true := by
  cases values with
  | nil => rfl
  | cons value rest =>
      simp only [Value.allSorted, Bool.and_eq_true] at h
      rw [treesOf, JSON.allKeysDistinct, keysDistinct_treeOf value h.1,
        allKeysDistinct_treesOf rest h.2]
      rfl

theorem entriesKeysDistinct_entriesOf (entries : List (String × Value))
    (h : Value.entriesSorted entries = true) :
    JSON.entriesKeysDistinct (entriesOf entries) = true := by
  cases entries with
  | nil => rfl
  | cons e rest =>
      simp only [Value.entriesSorted, Bool.and_eq_true] at h
      rw [entriesOf, JSON.entriesKeysDistinct, keysDistinct_treeOf e.2 h.1,
        entriesKeysDistinct_entriesOf rest h.2]
      rfl

end

mutual

/-- A tree that is equal to the tree of a value is converted to that value. -/
theorem toValue_of_eq (value : Value) (hvalue : value.sorted = true) (json : JSON)
    (hjson : json.keysDistinct = true) (heq : (treeOf value).eq json = true) :
    json.toValue = some value := by
  cases value with
  | null | bool | string =>
      cases json <;> simp_all [treeOf, JSON.eq, JSON.toValue]
  | number n =>
      cases json with
      | numb n' =>
          simp only [treeOf, JSON.eq, beq_iff_eq] at heq
          rw [JSON.toValue, ← heq, toSerde_numberOf]
          rfl
      | _ => simp [treeOf, JSON.eq] at heq
  | array items =>
      cases json with
      | array items' =>
          simp only [treeOf, JSON.eq] at heq
          rw [JSON.toValue, toValues_of_eq items hvalue items' hjson heq]
          rfl
      | _ => simp [treeOf, JSON.eq] at heq
  | object entries =>
      cases json with
      | object entries' =>
          simp only [treeOf, JSON.eq, Bool.and_eq_true, beq_iff_eq] at heq
          simp only [Value.sorted, Bool.and_eq_true, decide_eq_true_eq] at hvalue
          simp only [JSON.keysDistinct, Bool.and_eq_true, decide_eq_true_eq] at hjson
          have hlength : entries'.length = entries.length := by
            rw [← heq.1, entriesOf_eq, List.length_map]
          obtain ⟨converted, hconverted, hperm⟩ := toEntries_of_lookup hjson.1
            hvalue.1.keysDistinct hlength (lookup_of_eq entries hvalue.2 entries' hjson.2 heq.2)
          rw [JSON.toValue, hconverted, Option.map_some, Value.ofEntries_eq,
            hvalue.1.eq_ofEntries hperm]
      | _ => simp [treeOf, JSON.eq] at heq

theorem toValues_of_eq (values : List Value) (hvalues : Value.allSorted values = true)
    (items : List JSON) (hitems : JSON.allKeysDistinct items = true)
    (heq : JSON.eqItems (treesOf values) items = true) : JSON.toValues items = some values := by
  cases values with
  | nil =>
      cases items with
      | nil => rfl
      | cons => simp [treesOf, JSON.eqItems] at heq
  | cons value rest =>
      cases items with
      | nil => simp [treesOf, JSON.eqItems] at heq
      | cons json rest' =>
          simp only [treesOf, JSON.eqItems, Bool.and_eq_true] at heq
          simp only [Value.allSorted, Bool.and_eq_true] at hvalues
          simp only [JSON.allKeysDistinct, Bool.and_eq_true] at hitems
          rw [JSON.toValues, toValue_of_eq value hvalues.1 json hitems.1 heq.1,
            toValues_of_eq rest hvalues.2 rest' hitems.2 heq.2]
          rfl

theorem lookup_of_eq (values : List (String × Value)) (hvalues : Value.entriesSorted values = true)
    (entries : List (String × JSON)) (hentries : JSON.entriesKeysDistinct entries = true)
    (heq : JSON.eqEntries (entriesOf values) entries = true) :
    ∀ e ∈ values, ∃ json, entries.lookup e.1 = some json ∧ json.toValue = some e.2 := by
  cases values with
  | nil => simp
  | cons e rest =>
      obtain ⟨key, value⟩ := e
      simp only [entriesOf, JSON.eqEntries, Bool.and_eq_true, Option.any_eq_true] at heq
      simp only [Value.entriesSorted, Bool.and_eq_true] at hvalues
      obtain ⟨⟨json, hlookup, hjson⟩, hrest⟩ := heq
      have hdistinct : json.keysDistinct = true :=
        JSON.entriesKeysDistinct_iff.mp hentries _ (SortedMap.mem_of_lookup_eq_some hlookup)
      intro e he
      rcases List.mem_cons.mp he with rfl | he
      · exact ⟨json, hlookup, toValue_of_eq value hvalues.1 json hdistinct hjson⟩
      · exact lookup_of_eq rest hvalues.2 entries hentries hrest e he

end

/-! ## From a tree and back -/

theorem canonicalEntries_length (entries : List (String × JSON)) :
    (JSON.canonicalEntries entries).length = entries.length := by
  induction entries with
  | nil => rfl
  | cons e rest ih => rw [JSON.canonicalEntries, List.length_cons, ih, List.length_cons]

/-- A map finds the trees of the values that were inserted into it in any order. -/
theorem lookup_entriesOf {converted : List (String × Value)} (h : KeysDistinct converted)
    {e : String × Value} (he : e ∈ converted) :
    (entriesOf (SortedMap.ofEntries converted)).lookup e.1 = some (treeOf e.2) := by
  refine (keysDistinct_entriesOf SortedMap.sorted_ofEntries.keysDistinct).lookup_eq_some ?_
  rw [entriesOf_eq]
  exact List.mem_map.mpr ⟨e, h.perm_ofEntries.mem_iff.mpr he, rfl⟩

mutual

/-- The value of a tree is sorted, and its tree is the canonical one. -/
theorem eq_of_toValue (json : JSON) (hjson : json.keysDistinct = true) (value : Value)
    (h : json.toValue = some value) :
    value.sorted = true ∧ json.canonical.eq (treeOf value) = true := by
  cases json with
  | null | bool | str =>
      cases h
      simp [Value.sorted, JSON.canonical, treeOf, JSON.eq]
  | numb n =>
      obtain ⟨s, hs, rfl⟩ := Option.map_eq_some_iff.mp h
      simp [Value.sorted, JSON.canonical, treeOf, JSON.eq, canonical_of_toSerde hs]
  | array items =>
      obtain ⟨values, hvalues, rfl⟩ := Option.map_eq_some_iff.mp h
      exact eqItems_of_toValues items hjson values hvalues
  | object entries =>
      obtain ⟨converted, hconverted, rfl⟩ := Option.map_eq_some_iff.mp h
      simp only [JSON.keysDistinct, Bool.and_eq_true, decide_eq_true_eq] at hjson
      obtain ⟨hsorted, heq⟩ := eqEntries_of_toEntries entries hjson.2 converted hconverted
      have hdistinct : KeysDistinct converted := by
        rw [KeysDistinct, toEntries_keys hconverted]
        exact hjson.1
      have hperm := hdistinct.perm_ofEntries
      have hlength : entries.length = converted.length := by
        simpa using (congrArg List.length (toEntries_keys hconverted)).symm
      rw [Value.ofEntries_eq]
      simp only [Value.sorted, JSON.canonical, treeOf, JSON.eq, Bool.and_eq_true,
        decide_eq_true_eq, beq_iff_eq]
      refine ⟨⟨SortedMap.sorted_ofEntries, ?_⟩, ?_, heq _ fun e => lookup_entriesOf hdistinct⟩
      · exact Value.entriesSorted_iff.mpr fun e he =>
          Value.entriesSorted_iff.mp hsorted e (hperm.mem_iff.mp he)
      · rw [canonicalEntries_length, entriesOf_eq, List.length_map, hperm.length_eq, hlength]

theorem eqItems_of_toValues (items : List JSON) (hitems : JSON.allKeysDistinct items = true)
    (values : List Value) (h : JSON.toValues items = some values) :
    Value.allSorted values = true ∧
      JSON.eqItems (JSON.canonicalItems items) (treesOf values) = true := by
  cases items with
  | nil =>
      cases h
      exact ⟨rfl, rfl⟩
  | cons json rest =>
      simp only [JSON.toValues, Option.bind_eq_bind, Option.bind_eq_some_iff, Option.pure_def,
        Option.some.injEq] at h
      obtain ⟨value, hvalue, rest', hrest, rfl⟩ := h
      simp only [JSON.allKeysDistinct, Bool.and_eq_true] at hitems
      obtain ⟨hsorted, heq⟩ := eq_of_toValue json hitems.1 value hvalue
      obtain ⟨hsorted', heq'⟩ := eqItems_of_toValues rest hitems.2 rest' hrest
      simp only [Value.allSorted, JSON.canonicalItems, treesOf, JSON.eqItems, Bool.and_eq_true]
      exact ⟨⟨hsorted, hsorted'⟩, heq, heq'⟩

theorem eqEntries_of_toEntries (entries : List (String × JSON))
    (hentries : JSON.entriesKeysDistinct entries = true) (converted : List (String × Value))
    (h : JSON.toEntries entries = some converted) :
    Value.entriesSorted converted = true ∧ ∀ other : List (String × JSON),
      (∀ e ∈ converted, other.lookup e.1 = some (treeOf e.2)) →
        JSON.eqEntries (JSON.canonicalEntries entries) other = true := by
  cases entries with
  | nil =>
      cases h
      exact ⟨rfl, fun _ _ => rfl⟩
  | cons e rest =>
      obtain ⟨key, json⟩ := e
      obtain ⟨value, rest', hvalue, hrest, rfl⟩ := toEntries_cons.mp h
      simp only [JSON.entriesKeysDistinct, Bool.and_eq_true] at hentries
      obtain ⟨hsorted, heq⟩ := eq_of_toValue json hentries.1 value hvalue
      obtain ⟨hsorted', heq'⟩ := eqEntries_of_toEntries rest hentries.2 rest' hrest
      simp only [Value.entriesSorted, JSON.canonicalEntries, JSON.eqEntries, Bool.and_eq_true]
      refine ⟨⟨hsorted, hsorted'⟩, fun other hother => ⟨?_, ?_⟩⟩
      · rw [hother _ List.mem_cons_self]
        exact heq
      · exact heq' other fun e he => hother e (List.mem_cons_of_mem _ he)

end

end PhoenixChannels.Ffi
