import Cose.Bytes

/-!
# Hash functions

What the constructions over a hash function need of it: its digest, and the sizes of digest and block.
-/

set_option autoImplicit false

namespace Cose

structure Hash where
  size : Nat
  blockSize : Nat
  digest : Bytes → Bytes
  length_digest : ∀ m, (digest m).length = size

end Cose
