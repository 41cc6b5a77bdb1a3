/-!
# Common key parameters

The labels that every key map shares, whatever its key type.
-/

set_option autoImplicit false

namespace Cose

inductive Parameter where
  | kty | kid | alg | keyOps | baseIv
  deriving DecidableEq, Repr

namespace Parameter

def label : Parameter → Int64
  | kty => 1
  | kid => 2
  | alg => 3
  | keyOps => 4
  | baseIv => 5

def name : Parameter → String
  | kty => "kty"
  | kid => "kid"
  | alg => "alg"
  | keyOps => "key_ops"
  | baseIv => "base_iv"

def all : List Parameter := [kty, kid, alg, keyOps, baseIv]

/-- Names are found without regard to the case of ASCII letters. -/
def ofName? (name : String) : Option Parameter :=
  all.find? (fun p => p.name.toList == name.toList.map Char.toLower)

end Parameter

end Cose
