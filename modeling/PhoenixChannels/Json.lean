import PhoenixChannels.Message

/-!
# Payloads of users

`ffi/json.rs` and the payloads of `ffi/message.rs`, with their conversions to and from `serde_json`
values, which run in the task of the caller.
-/

namespace PhoenixChannels

/-! ## Numbers -/

/-- `From<i64> for serde_json::Number` -/
def SerdeNumber.ofInt64 (i : Int64) : SerdeNumber :=
  if h : i < 0 then .negInt i h else .posInt i.toUInt64

/-- `serde_json::Number::from_f64` -/
def SerdeNumber.fromF64 (f : F64) : Option SerdeNumber :=
  if h : f.isFinite = true then some (.float f h) else none

namespace SerdeNumber

def isU64 : SerdeNumber → Bool
  | posInt _ => true
  | _ => false

def isI64 : SerdeNumber → Bool
  | posInt n => n.toNat ≤ 9223372036854775807
  | negInt _ _ => true
  | float _ _ => false

def isF64 : SerdeNumber → Bool
  | float _ _ => true
  | _ => false

def asU64 : SerdeNumber → Option UInt64
  | posInt n => some n
  | _ => none

def asI64 : SerdeNumber → Option Int64
  | posInt n => if n.toNat ≤ 9223372036854775807 then some n.toInt64 else none
  | negInt n _ => some n
  | float _ _ => none

/-- An integer is given as the nearest float. -/
def asF64 : SerdeNumber → Option F64
  | posInt n => some ⟨n.toFloat.toBits⟩
  | negInt n _ => some ⟨n.toFloat.toBits⟩
  | float f _ => some f

end SerdeNumber

namespace Ffi

inductive Number
  | posInt (pos : UInt64)
  | negInt (neg : Int64)
  | float (float : F64)
deriving DecidableEq, Repr

/-- `From<Number> for serde_json::Number` -/
def Number.toSerde : Number → Panics SerdeNumber
  | .posInt pos => some (.posInt pos)
  | .negInt neg => some (.ofInt64 neg)
  | .float f => SerdeNumber.fromF64 f

/-- `From<&serde_json::Number> for Number` -/
def Number.ofSerdeRef (number : SerdeNumber) : Panics Number :=
  if number.isU64 then number.asU64.map .posInt
  else if number.isI64 then number.asI64.map .negInt
  -- assert!(serde_number_ref.is_f64())
  else if number.isF64 then number.asF64.map .float
  else none

/-- `From<serde_json::Number> for Number` -/
def Number.ofSerde (number : SerdeNumber) : Panics Number := ofSerdeRef number

/-! ## JSON -/

/-- `ffi::json::JSON`; the `HashMap` of an object is given by its entries in the order of its
iteration. -/
inductive JSON
  | null
  | bool (bool : Bool)
  | numb (number : Number)
  | str (string : String)
  | array (array : List JSON)
  | object (object : List (String × JSON))
deriving Repr

end Ffi

/-- `map.insert(key, value)` -/
def Value.insertKey (key : String) (value : Value) :
    List (String × Value) → List (String × Value)
  | [] => [(key, value)]
  | (k, v) :: rest =>
      if key < k then (key, value) :: (k, v) :: rest
      else if key = k then (key, value) :: rest
      else (k, v) :: insertKey key value rest

/-- `serde_json::to_value` of a `HashMap` of values -/
def Value.ofEntries (entries : List (String × Value)) : Value :=
  .object (entries.foldl (fun map (key, value) => insertKey key value map) [])

namespace Ffi

mutual

/-- `From<JSON> for serde_json::Value` -/
def JSON.toValue : JSON → Panics Value
  | .null => some .null
  | .bool b => some (.bool b)
  | .numb n => n.toSerde.map .number
  | .str s => some (.string s)
  | .array items => (JSON.toValues items).map .array
  | .object entries => (JSON.toEntries entries).map Value.ofEntries

def JSON.toValues : List JSON → Panics (List Value)
  | [] => some []
  | json :: rest => do return (← json.toValue) :: (← JSON.toValues rest)

def JSON.toEntries : List (String × JSON) → Panics (List (String × Value))
  | [] => some []
  | (key, json) :: rest => do return (key, ← json.toValue) :: (← JSON.toEntries rest)

end

mutual

/-- `From<serde_json::Value> for JSON` -/
def JSON.ofValue : Value → Panics JSON
  | .null => some .null
  | .bool b => some (.bool b)
  | .number n => (Number.ofSerde n).map .numb
  | .string s => some (.str s)
  | .array items => (JSON.ofValues items).map .array
  | .object entries => (JSON.ofEntries entries).map .object

def JSON.ofValues : List Value → Panics (List JSON)
  | [] => some []
  | value :: rest => do return (← JSON.ofValue value) :: (← JSON.ofValues rest)

def JSON.ofEntries : List (String × Value) → Panics (List (String × JSON))
  | [] => some []
  | (key, value) :: rest => do return (key, ← JSON.ofValue value) :: (← JSON.ofEntries rest)

end

mutual

/-- `From<&serde_json::Value> for JSON` -/
def JSON.ofValueRef : Value → Panics JSON
  | .null => some .null
  | .bool b => some (.bool b)
  | .number n => (Number.ofSerdeRef n).map .numb
  | .string s => some (.str s)
  | .array items => (JSON.ofValueRefs items).map .array
  | .object entries => (JSON.ofEntryRefs entries).map .object

def JSON.ofValueRefs : List Value → Panics (List JSON)
  | [] => some []
  | value :: rest => do return (← JSON.ofValueRef value) :: (← JSON.ofValueRefs rest)

def JSON.ofEntryRefs : List (String × Value) → Panics (List (String × JSON))
  | [] => some []
  | (key, value) :: rest => do return (key, ← JSON.ofValueRef value) :: (← JSON.ofEntryRefs rest)

end

mutual

/-- The derived `PartialEq`, with floats compared by their bits: an object is equal to another one of
its size that has an equal value under each of its keys. -/
def JSON.eq : JSON → JSON → Bool
  | .null, .null => true
  | .bool a, .bool b => a == b
  | .numb a, .numb b => a == b
  | .str a, .str b => a == b
  | .array items, .array items' => JSON.eqItems items items'
  | .object entries, .object entries' =>
      entries.length == entries'.length && JSON.eqEntries entries entries'
  | _, _ => false

def JSON.eqItems : List JSON → List JSON → Bool
  | [], [] => true
  | json :: rest, json' :: rest' => json.eq json' && JSON.eqItems rest rest'
  | _, _ => false

def JSON.eqEntries : List (String × JSON) → List (String × JSON) → Bool
  | [], _ => true
  | (key, json) :: rest, entries =>
      (entries.lookup key).any (fun json' => json.eq json') && JSON.eqEntries rest entries

end

/-! ## Payloads -/

inductive Payload
  | jsonPayload (json : JSON)
  | binary (bytes : List UInt8)
deriving Repr

/-- `From<ffi::message::Payload> for rust::message::Payload` -/
def Payload.into : Payload → Panics PhoenixChannels.Payload
  | jsonPayload json => json.toValue.map .value
  | binary bytes => some (.binary bytes)

end Ffi

end PhoenixChannels
