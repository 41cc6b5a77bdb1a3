import Cose.Bytes

/-!
# CBOR values

The part of CBOR that headers and keys are made of. A map is a list of entries, which the operations on maps
keep in label order with one entry for each label. Equality is decided by walking both values.
-/

set_option autoImplicit false

namespace Cose

inductive Label where
  | int (i : Int64)
  | text (s : String)
  deriving DecidableEq

inductive Value where
  | int (i : Int64)
  | bytes (bs : Bytes)
  | text (s : String)
  | array (items : List Value)
  | map (entries : List (Label × Value))
  | bool (b : Bool)
  | null
  deriving Inhabited

namespace Value

def int? : Value → Option Int64
  | int i => some i
  | _ => none

def bytes? : Value → Option Bytes
  | bytes bs => some bs
  | _ => none

def array? : Value → Option (List Value)
  | array items => some items
  | _ => none

inductive Kind where
  | int | bytes | text | array | map | bool | null
  deriving DecidableEq, Repr

def Kind.name : Kind → String
  | int => "int"
  | bytes => "bstr"
  | text => "tstr"
  | array => "array"
  | map => "map"
  | bool => "bool"
  | null => "null"

def kind : Value → Kind
  | int _ => .int
  | bytes _ => .bytes
  | text _ => .text
  | array _ => .array
  | map _ => .map
  | bool _ => .bool
  | null => .null

mutual

/-- The number of arrays and maps that stand inside one another; an empty one counts too. -/
def depth : Value → Nat
  | array items => depthItems items + 1
  | map entries => depthEntries entries + 1
  | _ => 0

def depthItems : List Value → Nat
  | [] => 0
  | x :: xs => max (depth x) (depthItems xs)

def depthEntries : List (Label × Value) → Nat
  | [] => 0
  | (_, x) :: es => max (depth x) (depthEntries es)

end

mutual

def same : Value → Value → Bool
  | int i, int j => i == j
  | bytes a, bytes b => a == b
  | text s, text t => s == t
  | array xs, array ys => sameItems xs ys
  | map es, map fs => sameEntries es fs
  | bool a, bool b => a == b
  | null, null => true
  | _, _ => false

def sameItems : List Value → List Value → Bool
  | [], [] => true
  | x :: xs, y :: ys => same x y && sameItems xs ys
  | _, _ => false

def sameEntries : List (Label × Value) → List (Label × Value) → Bool
  | [], [] => true
  | (k, x) :: es, (l, y) :: fs => k == l && same x y && sameEntries es fs
  | _, _ => false

end

mutual

theorem same_iff : ∀ x y : Value, same x y = true ↔ x = y
  | int i, y => by cases y <;> simp [same]
  | bytes a, y => by cases y <;> simp [same]
  | text s, y => by cases y <;> simp [same]
  | array xs, y => by cases y <;> simp [same, sameItems_iff xs]
  | map es, y => by cases y <;> simp [same, sameEntries_iff es]
  | bool b, y => by cases y <;> simp [same]
  | null, y => by cases y <;> simp [same]

theorem sameItems_iff : ∀ xs ys : List Value, sameItems xs ys = true ↔ xs = ys
  | [], ys => by cases ys <;> simp [sameItems]
  | x :: xs, ys => by cases ys <;> simp [sameItems, same_iff x, sameItems_iff xs]

theorem sameEntries_iff : ∀ es fs : List (Label × Value), sameEntries es fs = true ↔ es = fs
  | [], fs => by cases fs <;> simp [sameEntries]
  | (k, x) :: es, fs => by
    cases fs <;> simp [sameEntries, same_iff x, sameEntries_iff es, Prod.ext_iff]

end

instance : DecidableEq Value := fun x y => decidable_of_iff _ (same_iff x y)

end Value

end Cose
