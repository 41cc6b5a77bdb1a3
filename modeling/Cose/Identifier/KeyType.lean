/-!
# Key types

The assigned key types, and identifiers that only a registry of key types knows. Reading a number never
gives an unassigned key type, so `registered 1` and `okp` are different key types with one number.
-/

set_option autoImplicit false

namespace Cose

inductive KeyType where
  | reserved | okp | ec2 | rsa | symmetric | hssLms | walnutDsa
  | registered (id : Int64)
  deriving DecidableEq, Repr

namespace KeyType

def id : KeyType → Int64
  | reserved => 0
  | okp => 1
  | ec2 => 2
  | rsa => 3
  | symmetric => 4
  | hssLms => 5
  | walnutDsa => 6
  | registered id => id

def name : KeyType → String
  | reserved => "Reserved"
  | okp => "OKP"
  | ec2 => "EC2"
  | rsa => "RSA"
  | symmetric => "Symmetric"
  | hssLms => "HSS-LMS"
  | walnutDsa => "WalnutDSA"
  | registered id => s!"kty({id})"

def assigned : List KeyType := [reserved, okp, ec2, rsa, symmetric, hssLms, walnutDsa]

def ofId? : Int64 → Option KeyType
  | 0 => some reserved
  | 1 => some okp
  | 2 => some ec2
  | 3 => some rsa
  | 4 => some symmetric
  | 5 => some hssLms
  | 6 => some walnutDsa
  | _ => none

theorem ofId?_id {kty : KeyType} (known : kty ∈ assigned) : ofId? kty.id = some kty := by
  have all : ∀ kty ∈ assigned, ofId? kty.id = some kty := by decide
  exact all kty known

/-- The two tables agree on the key types that are assigned. -/
theorem ofId?_eq_some_iff (n : Int64) (kty : KeyType) : ofId? n = some kty ↔ n = kty.id ∧ kty ∈ assigned := by
  constructor
  · intro found
    rw [ofId?.eq_def] at found
    split at found <;> cases found <;> exact ⟨rfl, by decide⟩
  · rintro ⟨rfl, known⟩
    exact ofId?_id known

/-- The assigned key type of a number, else the registered one. -/
def ofRegistered (id : Int64) : KeyType := (ofId? id).getD (registered id)

instance : ToString KeyType := ⟨name⟩

end KeyType

end Cose
