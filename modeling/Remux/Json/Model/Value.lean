import Mathlib.Data.List.Sort
import Mathlib.Data.String.Basic

/-!
# JSON values

The values `serde_json` parses and prints. The crate is built with its
`preserve_order` feature, so an object is the list of its entries in the
order they were read, with no key twice (`Value.WellFormed`); `Json` is
a value together with that fact.
-/

namespace Remux

/-- The bits of a finite double; `serde_json` makes no number of the
others. -/
abbrev Double := {bits : UInt64 // (bits >>> 52) &&& 0x7ff ≠ 0x7ff}

/-- A JSON number as `serde_json` holds it: an unsigned or a negative
64-bit integer, or a double. -/
inductive Number where
  | posInt (n : UInt64)
  | negInt (n : {n : Int64 // n < 0})
  | float (double : Double)
  deriving DecidableEq

/-- `serde_json::Value`. -/
inductive Value where
  | null
  | bool (b : Bool)
  | number (n : Number)
  | string (s : String)
  | array (values : List Value)
  | object (entries : List (String × Value))

namespace Value

/-- `Value::get`: the value of a key, if this is an object that has it. -/
def get (key : String) : Value → Option Value
  | object entries => entries.lookup key
  | _ => none

/-- `Value::as_str`. -/
def asStr : Value → Option String
  | string s => some s
  | _ => none

/-- `Value::as_bool`. -/
def asBool : Value → Option Bool
  | bool b => some b
  | _ => none

/-- `Value::as_u64`. -/
def asU64 : Value → Option UInt64
  | number (.posInt n) => some n
  | _ => none

/-- `Value::as_i64`. -/
def asI64 : Value → Option ℤ
  | number (.posInt n) => if n.toNat < 2 ^ 63 then some n.toNat else none
  | number (.negInt n) => some n.val.toInt
  | _ => none

mutual

/-- No object in the value has a key twice. -/
def WellFormed : Value → Prop
  | array values => WellFormedValues values
  | object entries => (entries.map Prod.fst).Nodup ∧ WellFormedEntries entries
  | _ => True

/-- Every value of the list is well formed. -/
def WellFormedValues : List Value → Prop
  | [] => True
  | v :: vs => WellFormed v ∧ WellFormedValues vs

/-- The value of every entry is well formed. -/
def WellFormedEntries : List (String × Value) → Prop
  | [] => True
  | (_, v) :: es => WellFormed v ∧ WellFormedEntries es

end

mutual

/-- **Equal up to object key order**: the same value, where the entries
of an object may stand in another order. -/
inductive SameUpToOrder : Value → Value → Prop
  | refl (v : Value) : SameUpToOrder v v
  | array {vs ws : List Value} : SameValues vs ws → SameUpToOrder (array vs) (array ws)
  | object {es fs fs' : List (String × Value)} :
      fs.Perm fs' → SameEntries es fs' → SameUpToOrder (object es) (object fs)

/-- Pointwise `SameUpToOrder`. -/
inductive SameValues : List Value → List Value → Prop
  | nil : SameValues [] []
  | cons {v w : Value} {vs ws : List Value} :
      SameUpToOrder v w → SameValues vs ws → SameValues (v :: vs) (w :: ws)

/-- Pointwise the same key, and values related by `SameUpToOrder`. -/
inductive SameEntries : List (String × Value) → List (String × Value) → Prop
  | nil : SameEntries [] []
  | cons {k : String} {v w : Value} {es fs : List (String × Value)} :
      SameUpToOrder v w → SameEntries es fs → SameEntries ((k, v) :: es) ((k, w) :: fs)

end

end Value

/-- A value `serde_json` can hold: its `Map` has every key once. -/
abbrev Json := { v : Value // v.WellFormed }

/-- `sort_by(|left, right| left.0.cmp(&right.0))`: stable, by key. -/
def sortEntries (entries : List (String × Value)) : List (String × Value) :=
  entries.insertionSort fun left right => left.1 ≤ right.1

mutual

/-- `canonical_value`: every object's entries in key order. The source
sorts the entries and then rewrites their values; the order of the two
does not matter, the sort reading only the keys. -/
def canonicalValue : Value → Value
  | .array values => .array (canonicalValues values)
  | .object entries => .object (sortEntries (canonicalEntries entries))
  | scalar => scalar

/-- `canonical_value` on the elements of an array. -/
def canonicalValues : List Value → List Value
  | [] => []
  | v :: vs => canonicalValue v :: canonicalValues vs

/-- `canonical_value` on the values of an object's entries. -/
def canonicalEntries : List (String × Value) → List (String × Value)
  | [] => []
  | (key, value) :: es => (key, canonicalValue value) :: canonicalEntries es

end

end Remux
