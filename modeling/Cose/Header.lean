import Cose.Cbor.Codec

/-!
# Header maps

A header is a map that remembers the bytes it was read from. A protected header is signed in its written
form, so a header that was received is written back byte for byte until it is edited. The empty byte string
stands for "nothing retained", and also is the protected form of the empty map.
-/

set_option autoImplicit false

namespace Cose

structure Header where
  retained : Bytes
  map : Map
  deriving DecidableEq

namespace Header

def empty : Header := ⟨[], []⟩

def ofMap (m : Map) : Header := ⟨[], m⟩

/-- The header whose protected form is the content of a received byte string. -/
def ofProtected (bs : Bytes) : Result Header := (Map.ofBytes bs).map fun m => ⟨bs, m⟩

def clear (_ : Header) : Header := empty

/-- Editing a header lets go of the retained bytes. -/
def insert (h : Header) (l : Label) (v : Value) : Header := ⟨[], h.map.insert l v⟩

def int? (h : Header) (label : Int64) : Option Int64 := (h.map.find? label).bind Value.int?

def bytes? (h : Header) (label : Int64) : Option Bytes := (h.map.find? label).bind Value.bytes?

def array? (h : Header) (label : Int64) : Option (List Value) := (h.map.find? label).bind Value.array?

def isEmpty (h : Header) : Bool := h.map.isEmpty

def protectedBytes (h : Header) : Bytes :=
  if h.retained.isEmpty then
    if h.map.isEmpty then [] else h.map.toBytes
  else h.retained

end Header

end Cose
