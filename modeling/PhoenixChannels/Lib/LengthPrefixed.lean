import Mathlib.Data.List.Basic

/-!
# Length-prefixed fields

A frame that gives the sizes of its fields first, one byte for each, then the fields, and then
everything that is left.
-/

namespace LengthPrefixed

def frame (fields : List (List UInt8)) (rest : List UInt8) : List UInt8 :=
  fields.map (fun field => UInt8.ofNat field.length) ++ fields.flatten ++ rest

/-- The sizes fit into their bytes. -/
def Fits (fields : List (List UInt8)) : Prop := ∀ field ∈ fields, field.length < 256

instance (fields : List (List UInt8)) : Decidable (Fits fields) :=
  inferInstanceAs (Decidable (∀ field ∈ fields, field.length < 256))

/-- Cuts parts of the given sizes off. -/
def cut : List Nat → List UInt8 → Option (List (List UInt8) × List UInt8)
  | [], bytes => some ([], bytes)
  | size :: sizes, bytes =>
      if bytes.length < size then none
      else (cut sizes (bytes.drop size)).map fun x => (bytes.take size :: x.1, x.2)

/-- Reads a frame with `n` fields. -/
def read (n : Nat) (bytes : List UInt8) : Option (List (List UInt8) × List UInt8) :=
  if bytes.length < n then none
  else cut ((bytes.take n).map UInt8.toNat) (bytes.drop n)

variable {fields : List (List UInt8)} {rest : List UInt8}

@[simp] theorem fits_nil : Fits [] := by simp [Fits]

@[simp] theorem fits_cons {field : List UInt8} :
    Fits (field :: fields) ↔ field.length < 256 ∧ Fits fields := by simp [Fits]

theorem cut_append : cut (fields.map List.length) (fields.flatten ++ rest) = some (fields, rest) := by
  induction fields with
  | nil => rfl
  | cons field fields ih => simp [cut, ih]

theorem toNat_size {size : Nat} (h : size < 256) : (UInt8.ofNat size).toNat = size :=
  Nat.mod_eq_of_lt h

theorem sizes_toNat (h : Fits fields) :
    (fields.map fun field => UInt8.ofNat field.length).map UInt8.toNat =
      fields.map List.length := by
  rw [List.map_map]
  apply List.map_congr_left
  intro field hmem
  exact toNat_size (h field hmem)

theorem read_frame (h : Fits fields) : read fields.length (frame fields rest) = some (fields, rest) := by
  have hsplit : frame fields rest =
      (fields.map fun field => UInt8.ofNat field.length) ++ (fields.flatten ++ rest) := by
    simp [frame]
  have htake : (frame fields rest).take fields.length =
      fields.map fun field => UInt8.ofNat field.length := by
    rw [hsplit, List.take_append_of_le_length (by simp), List.take_of_length_le (by simp)]
  have hdrop : (frame fields rest).drop fields.length = fields.flatten ++ rest := by
    rw [hsplit, List.drop_append_of_le_length (by simp), List.drop_of_length_le (by simp),
      List.nil_append]
  have hlength : ¬ (frame fields rest).length < fields.length := by
    simp [frame]
  rw [read, if_neg hlength, htake, hdrop, sizes_toNat h, cut_append]

end LengthPrefixed
