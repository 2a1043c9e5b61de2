import Mathlib.Data.String.Basic
import PhoenixChannels.Json
import PhoenixChannels.Lib.SortedMap

/-!
# The two conversions

What the conversions between the trees of users and the values of `serde_json` keep, by induction
over the tree or the value.
-/

namespace PhoenixChannels

namespace Ffi

/-! ## Finite floats -/

def Number.isFinite : Number → Bool
  | .float f => f.isFinite
  | _ => true

mutual

/-- Every float of the tree is finite. -/
def JSON.isFinite : JSON → Bool
  | .numb n => n.isFinite
  | .array items => JSON.allFinite items
  | .object entries => JSON.allEntriesFinite entries
  | _ => true

def JSON.allFinite : List JSON → Bool
  | [] => true
  | json :: rest => json.isFinite && JSON.allFinite rest

def JSON.allEntriesFinite : List (String × JSON) → Bool
  | [] => true
  | (_, json) :: rest => json.isFinite && JSON.allEntriesFinite rest

end

theorem JSON.allEntriesFinite_iff {entries : List (String × JSON)} :
    JSON.allEntriesFinite entries = true ↔ ∀ e ∈ entries, e.2.isFinite = true := by
  induction entries with
  | nil => simp [JSON.allEntriesFinite]
  | cons e rest ih => simp [JSON.allEntriesFinite, ih]

theorem Number.toSerde_isSome (n : Number) : n.toSerde.isSome = n.isFinite := by
  cases n with
  | float f => cases h : f.isFinite <;> simp [toSerde, isFinite, SerdeNumber.fromF64, h]
  | _ => rfl

mutual

theorem JSON.toValue_isSome (json : JSON) : json.toValue.isSome = json.isFinite := by
  cases json with
  | numb n => simp [JSON.toValue, JSON.isFinite, Number.toSerde_isSome]
  | array items => simp [JSON.toValue, JSON.isFinite, JSON.toValues_isSome items]
  | object entries => simp [JSON.toValue, JSON.isFinite, JSON.toEntries_isSome entries]
  | _ => simp [JSON.toValue, JSON.isFinite]

theorem JSON.toValues_isSome (items : List JSON) :
    (JSON.toValues items).isSome = JSON.allFinite items := by
  cases items with
  | nil => simp [JSON.toValues, JSON.allFinite]
  | cons json rest =>
      rw [JSON.toValues, JSON.allFinite, ← JSON.toValue_isSome json, ← JSON.toValues_isSome rest]
      cases json.toValue <;> cases JSON.toValues rest <;> rfl

theorem JSON.toEntries_isSome (entries : List (String × JSON)) :
    (JSON.toEntries entries).isSome = JSON.allEntriesFinite entries := by
  cases entries with
  | nil => simp [JSON.toEntries, JSON.allEntriesFinite]
  | cons entry rest =>
      obtain ⟨key, json⟩ := entry
      rw [JSON.toEntries, JSON.allEntriesFinite, ← JSON.toValue_isSome json,
        ← JSON.toEntries_isSome rest]
      cases json.toValue <;> cases JSON.toEntries rest <;> rfl

end

/-! ## The trees that are no different as maps -/

mutual

/-- A `HashMap` has each of its keys once. -/
def JSON.keysDistinct : JSON → Bool
  | .array items => JSON.allKeysDistinct items
  | .object entries => decide (SortedMap.KeysDistinct entries) && JSON.entriesKeysDistinct entries
  | _ => true

def JSON.allKeysDistinct : List JSON → Bool
  | [] => true
  | json :: rest => json.keysDistinct && JSON.allKeysDistinct rest

def JSON.entriesKeysDistinct : List (String × JSON) → Bool
  | [] => true
  | (_, json) :: rest => json.keysDistinct && JSON.entriesKeysDistinct rest

end

theorem JSON.entriesKeysDistinct_iff {entries : List (String × JSON)} :
    JSON.entriesKeysDistinct entries = true ↔ ∀ e ∈ entries, e.2.keysDistinct = true := by
  induction entries with
  | nil => simp [JSON.entriesKeysDistinct]
  | cons e rest ih => simp [JSON.entriesKeysDistinct, ih]

/-- An integer that is not negative, as the `PosInt` of its value. -/
def Number.canonical : Number → Number
  | .negInt i => if 0 ≤ i.toInt then .posInt (.ofNat i.toInt.toNat) else .negInt i
  | n => n

mutual

/-- The tree with all its integers that are not negative as `PosInt`. -/
def JSON.canonical : JSON → JSON
  | .numb n => .numb n.canonical
  | .array items => .array (JSON.canonicalItems items)
  | .object entries => .object (JSON.canonicalEntries entries)
  | json => json

def JSON.canonicalItems : List JSON → List JSON
  | [] => []
  | json :: rest => json.canonical :: JSON.canonicalItems rest

def JSON.canonicalEntries : List (String × JSON) → List (String × JSON)
  | [] => []
  | (key, json) :: rest => (key, json.canonical) :: JSON.canonicalEntries rest

end

end Ffi

mutual

/-- Each object of the value has its entries in the order of their keys. -/
def Value.sorted : Value → Bool
  | .array items => Value.allSorted items
  | .object entries => decide (SortedMap.Sorted entries) && Value.entriesSorted entries
  | _ => true

def Value.allSorted : List Value → Bool
  | [] => true
  | value :: rest => value.sorted && Value.allSorted rest

def Value.entriesSorted : List (String × Value) → Bool
  | [] => true
  | (_, value) :: rest => value.sorted && Value.entriesSorted rest

end

theorem Value.insertKey_eq (key : String) (value : Value) (entries : List (String × Value)) :
    Value.insertKey key value entries = SortedMap.insert key value entries := by
  induction entries with
  | nil => rfl
  | cons e rest ih => simp only [Value.insertKey, SortedMap.insert, ih]

theorem Value.ofEntries_eq (entries : List (String × Value)) :
    Value.ofEntries entries = .object (SortedMap.ofEntries entries) := by
  simp only [Value.ofEntries, SortedMap.ofEntries, Value.insertKey_eq]

theorem Value.entriesSorted_iff {entries : List (String × Value)} :
    Value.entriesSorted entries = true ↔ ∀ e ∈ entries, e.2.sorted = true := by
  induction entries with
  | nil => simp [Value.entriesSorted]
  | cons e rest ih => simp [Value.entriesSorted, ih]

namespace Ffi

/-! ## No conversion of a value panics -/

/-- The number as the constructor of `ffi::json::Number` that goes with it. -/
def numberOf : SerdeNumber → Number
  | .posInt n => .posInt n
  | .negInt n _ => .negInt n
  | .float f _ => .float f

/-- Each `as_` is unwrapped where its `is_` holds, and one of the three holds. -/
theorem Number.ofSerdeRef_eq (n : SerdeNumber) : Number.ofSerdeRef n = some (numberOf n) := by
  cases n <;> rfl

mutual

/-- The tree of a value. -/
def treeOf : Value → JSON
  | .null => .null
  | .bool b => .bool b
  | .number n => .numb (numberOf n)
  | .string s => .str s
  | .array items => .array (treesOf items)
  | .object entries => .object (entriesOf entries)

def treesOf : List Value → List JSON
  | [] => []
  | value :: rest => treeOf value :: treesOf rest

def entriesOf : List (String × Value) → List (String × JSON)
  | [] => []
  | (key, value) :: rest => (key, treeOf value) :: entriesOf rest

end

theorem entriesOf_eq (entries : List (String × Value)) :
    entriesOf entries = entries.map fun e => (e.1, treeOf e.2) := by
  induction entries with
  | nil => rfl
  | cons e rest ih => rw [List.map_cons, ← ih, entriesOf]

mutual

theorem JSON.ofValue_eq (value : Value) : JSON.ofValue value = some (treeOf value) := by
  cases value with
  | number n => simp [JSON.ofValue, treeOf, Number.ofSerde, Number.ofSerdeRef_eq]
  | array items => simp [JSON.ofValue, treeOf, JSON.ofValues_eq items]
  | object entries => simp [JSON.ofValue, treeOf, JSON.ofEntries_eq entries]
  | _ => simp [JSON.ofValue, treeOf]

theorem JSON.ofValues_eq (values : List Value) : JSON.ofValues values = some (treesOf values) := by
  cases values with
  | nil => rfl
  | cons value rest =>
      simp [JSON.ofValues, treesOf, JSON.ofValue_eq value, JSON.ofValues_eq rest]

theorem JSON.ofEntries_eq (entries : List (String × Value)) :
    JSON.ofEntries entries = some (entriesOf entries) := by
  cases entries with
  | nil => rfl
  | cons e rest =>
      obtain ⟨key, value⟩ := e
      simp [JSON.ofEntries, entriesOf, JSON.ofValue_eq value, JSON.ofEntries_eq rest]

end

mutual

theorem JSON.ofValueRef_eq (value : Value) : JSON.ofValueRef value = some (treeOf value) := by
  cases value with
  | number n => simp [JSON.ofValueRef, treeOf, Number.ofSerdeRef_eq]
  | array items => simp [JSON.ofValueRef, treeOf, JSON.ofValueRefs_eq items]
  | object entries => simp [JSON.ofValueRef, treeOf, JSON.ofEntryRefs_eq entries]
  | _ => simp [JSON.ofValueRef, treeOf]

theorem JSON.ofValueRefs_eq (values : List Value) :
    JSON.ofValueRefs values = some (treesOf values) := by
  cases values with
  | nil => rfl
  | cons value rest =>
      simp [JSON.ofValueRefs, treesOf, JSON.ofValueRef_eq value, JSON.ofValueRefs_eq rest]

theorem JSON.ofEntryRefs_eq (entries : List (String × Value)) :
    JSON.ofEntryRefs entries = some (entriesOf entries) := by
  cases entries with
  | nil => rfl
  | cons e rest =>
      obtain ⟨key, value⟩ := e
      simp [JSON.ofEntryRefs, entriesOf, JSON.ofValueRef_eq value, JSON.ofEntryRefs_eq rest]

end

end Ffi

end PhoenixChannels
