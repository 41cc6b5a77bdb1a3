import Cose.Cbor.Encoder
import Cose.Cbor.Reader
import Cose.Error

/-!
# Values and maps as bytes

The reader and the writer under the names that the rest of the library uses.
-/

set_option autoImplicit false

namespace Cose

def Value.toBytes (v : Value) : Bytes := Cbor.encode v

def Value.ofBytes (bs : Bytes) : Result Value := (Cbor.decode bs).mapError (fun e => .cbor (.item e))

def Map.toBytes (m : Map) : Bytes := Cbor.encodeMap m

/-- The map that the bytes consist of; the empty byte string is the empty map. -/
def Map.ofBytes (bs : Bytes) : Result Map := (Cbor.decodeMap bs).mapError (fun e => .cbor (.item e))

end Cose
