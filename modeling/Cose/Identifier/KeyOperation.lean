/-!
# Key operations

What a key may be used for.
-/

set_option autoImplicit false

namespace Cose

inductive KeyOperation where
  | sign | verify | encrypt | decrypt | wrap | unwrap | deriveKey | deriveBits | macCreate | macVerify
  deriving DecidableEq, Repr

namespace KeyOperation

def id : KeyOperation → Int64
  | sign => 1
  | verify => 2
  | encrypt => 3
  | decrypt => 4
  | wrap => 5
  | unwrap => 6
  | deriveKey => 7
  | deriveBits => 8
  | macCreate => 9
  | macVerify => 10

def name : KeyOperation → String
  | sign => "sign"
  | verify => "verify"
  | encrypt => "encrypt"
  | decrypt => "decrypt"
  | wrap => "wrap key"
  | unwrap => "unwrap key"
  | deriveKey => "derive key"
  | deriveBits => "derive bits"
  | macCreate => "MAC create"
  | macVerify => "MAC verify"

def ofId? : Int64 → Option KeyOperation
  | 1 => some sign
  | 2 => some verify
  | 3 => some encrypt
  | 4 => some decrypt
  | 5 => some wrap
  | 6 => some unwrap
  | 7 => some deriveKey
  | 8 => some deriveBits
  | 9 => some macCreate
  | 10 => some macVerify
  | _ => none

theorem ofId?_id (op : KeyOperation) : ofId? op.id = some op := by cases op <;> decide

theorem ofId?_eq_some_iff (n : Int64) (op : KeyOperation) : ofId? n = some op ↔ n = op.id := by
  constructor
  · intro found
    rw [ofId?.eq_def] at found
    split at found <;> cases found <;> rfl
  · rintro rfl
    exact ofId?_id op

instance : ToString KeyOperation := ⟨name⟩

end KeyOperation

end Cose
