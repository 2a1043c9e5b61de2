import PhoenixChannels.Json.Lemmas.RoundTrip

/-!
# Theorems on the payloads of users
-/

namespace PhoenixChannels.Ffi

/-- Both conversions of the value give one tree, and the tree gives the value back, in whatever order
its objects iterate. -/
def ValueRoundTrips (value : Value) : Prop :=
  ∃ json, JSON.ofValue value = some json ∧ JSON.ofValueRef value = some json ∧
    json.keysDistinct = true ∧ json.toValue = some value ∧
      ∀ json', json'.keysDistinct = true → json.eq json' = true → json'.toValue = some value

/-- The tree gives a value, and the value gives the tree back, with a `PosInt` for each `NegInt` that
is not negative. -/
def TreeRoundTrips (json : JSON) : Prop :=
  ∃ value, json.toValue = some value ∧ value.sorted = true ∧
    ∃ json', JSON.ofValue value = some json' ∧ JSON.ofValueRef value = some json' ∧
      json.canonical.eq json' = true

theorem valueRoundTrips {value : Value} (h : value.sorted = true) : ValueRoundTrips value := by
  have hdistinct := keysDistinct_treeOf value h
  refine ⟨treeOf value, JSON.ofValue_eq value, JSON.ofValueRef_eq value, hdistinct, ?_, ?_⟩
  · exact toValue_of_eq value h _ hdistinct (eq_self _ hdistinct)
  · exact toValue_of_eq value h

theorem treeRoundTrips_iff {json : JSON} (h : json.keysDistinct = true) :
    TreeRoundTrips json ↔ json.isFinite = true := by
  rw [← JSON.toValue_isSome, Option.isSome_iff_exists]
  constructor
  · rintro ⟨value, hvalue, _⟩
    exact ⟨value, hvalue⟩
  · rintro ⟨value, hvalue⟩
    obtain ⟨hsorted, heq⟩ := eq_of_toValue json h value hvalue
    exact ⟨value, hvalue, hsorted, treeOf value, JSON.ofValue_eq value, JSON.ofValueRef_eq value, heq⟩

/-- A sorted value comes back from its tree, and a tree from its value if and only if its floats are
finite. -/
theorem conversions_roundTrip :
    (∀ value : Value, value.sorted = true → ValueRoundTrips value) ∧
      ∀ json : JSON, json.keysDistinct = true → (TreeRoundTrips json ↔ json.isFinite = true) :=
  ⟨fun _ => valueRoundTrips, fun _ => treeRoundTrips_iff⟩

/-- The boundaries of the integers. -/
def boundsValue : Value :=
  .object [("max", .number (.posInt 18446744073709551615)),
    ("values", .array [.number (.negInt (-9223372036854775808) (by decide)), .number (.posInt 0)])]

def boundsTree : JSON :=
  .object [("values", .array [.numb (.negInt (-9223372036854775808)), .numb (.negInt 0)]),
    ("max", .numb (.posInt 18446744073709551615))]

theorem conversions_roundTrip_bounds :
    ValueRoundTrips boundsValue ∧ TreeRoundTrips boundsTree ∧
      boundsTree.canonical.eq (treeOf boundsValue) = true :=
  ⟨conversions_roundTrip.1 _ (by decide +kernel),
    (conversions_roundTrip.2 _ (by decide +kernel)).mpr (by decide +kernel), by decide +kernel⟩

end PhoenixChannels.Ffi
