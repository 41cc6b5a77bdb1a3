import Cose.Key.Registry

/-!
# Key sets

A key set is a list of keys, duplicates allowed. Its written form is an array of key maps.
-/

set_option autoImplicit false

namespace Cose

structure KeySet where
  keys : List Key
  deriving DecidableEq

namespace KeySet

variable {φ : Type} [KeyReader φ]

def empty : KeySet := ⟨[]⟩

def push (s : KeySet) (key : Key) : KeySet := ⟨s.keys ++ [key]⟩

def length (s : KeySet) : Nat := s.keys.length

def get? (s : KeySet) (index : Nat) : Option Key := s.keys[index]?

def withKid (s : KeySet) (kid : Bytes) : List Key := s.keys.filter (·.kid == some kid)

def toBytes (s : KeySet) : Bytes := (Value.array (s.keys.map fun k => .map k.toMap)).toBytes

def decodeEntry (r : Registry φ) : Value → Result Key
  | .map m => r.decode m
  | v => .error (.malformedKey (.setEntryNotMap v.kind))

/-- The first entry that is no key decides the error. -/
def ofBytes (r : Registry φ) (bs : Bytes) : Result KeySet := do
  let v ← Value.ofBytes bs
  match v with
  | .array items =>
    let keys ← items.mapM (decodeEntry r)
    .ok ⟨keys⟩
  | _ => .error (.cbor .keySetNotArray)

end KeySet

end Cose
