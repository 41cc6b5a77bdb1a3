import Cose.Bytes

/-!
# Item types

What the first byte of an item says about it, and the words for it in messages. A negative number with an
argument of its own takes the narrowest signed type that surely holds it, for which the first byte of the
argument is looked at as well.
-/

set_option autoImplicit false

namespace Cose

namespace Cbor

inductive ItemType where
  | u8 | u16 | u32 | u64
  | i8 | i16 | i32 | i64 | int
  | bytes | bytesIndef
  | string | stringIndef
  | array | arrayIndef
  | map | mapIndef
  | tag | simple | bool | null | undefined
  | f16 | f32 | f64
  | stop
  | unknown (initial : UInt8)
  deriving DecidableEq, Repr

namespace ItemType

def isInt : ItemType → Bool
  | u8 | u16 | u32 | u64 | i8 | i16 | i32 | i64 | int => true
  | _ => false

def words : ItemType → String
  | u8 => "u8"
  | u16 => "u16"
  | u32 => "u32"
  | u64 => "u64"
  | i8 => "i8"
  | i16 => "i16"
  | i32 => "i32"
  | i64 => "i64"
  | int => "int"
  | bytes => "bytes"
  | bytesIndef => "indefinite bytes"
  | string => "string"
  | stringIndef => "indefinite string"
  | array => "array"
  | arrayIndef => "indefinite array"
  | map => "map"
  | mapIndef => "indefinite map"
  | tag => "tag"
  | simple => "simple"
  | bool => "bool"
  | null => "null"
  | undefined => "undefined"
  | f16 => "f16"
  | f32 => "f32"
  | f64 => "f64"
  | stop => "break"
  | unknown b => "0x" ++ String.ofList (Nat.toDigits 16 b.toNat)

def identifier : ItemType → String
  | u8 => "U8"
  | u16 => "U16"
  | u32 => "U32"
  | u64 => "U64"
  | i8 => "I8"
  | i16 => "I16"
  | i32 => "I32"
  | i64 => "I64"
  | int => "Int"
  | bytes => "Bytes"
  | bytesIndef => "BytesIndef"
  | string => "String"
  | stringIndef => "StringIndef"
  | array => "Array"
  | arrayIndef => "ArrayIndef"
  | map => "Map"
  | mapIndef => "MapIndef"
  | tag => "Tag"
  | simple => "Simple"
  | bool => "Bool"
  | null => "Null"
  | undefined => "Undefined"
  | f16 => "F16"
  | f32 => "F32"
  | f64 => "F64"
  | stop => "Break"
  | unknown b => s!"Unknown({b})"

/-- The type of an item with the given initial byte. `next` is the first byte of the argument; `none` is
returned when it is needed and not there. -/
def ofInitial? (b : UInt8) (next : Option UInt8) : Option ItemType :=
  if b ≤ 0x18 then some u8
  else if b = 0x19 then some u16
  else if b = 0x1a then some u32
  else if b = 0x1b then some u64
  else if b < 0x20 then some (unknown b)
  else if b ≤ 0x37 then some i8
  else if b = 0x38 then next.map (fun c => if c < 0x80 then i8 else i16)
  else if b = 0x39 then next.map (fun c => if c < 0x80 then i16 else i32)
  else if b = 0x3a then next.map (fun c => if c < 0x80 then i32 else i64)
  else if b = 0x3b then next.map (fun c => if c < 0x80 then i64 else int)
  else if b < 0x40 then some (unknown b)
  else if b ≤ 0x5b then some bytes
  else if b = 0x5f then some bytesIndef
  else if b < 0x60 then some (unknown b)
  else if b ≤ 0x7b then some string
  else if b = 0x7f then some stringIndef
  else if b < 0x80 then some (unknown b)
  else if b ≤ 0x9b then some array
  else if b = 0x9f then some arrayIndef
  else if b < 0xa0 then some (unknown b)
  else if b ≤ 0xbb then some map
  else if b = 0xbf then some mapIndef
  else if b < 0xc0 then some (unknown b)
  else if b ≤ 0xdb then some tag
  else if b < 0xe0 then some (unknown b)
  else if b ≤ 0xf3 then some simple
  else if b ≤ 0xf5 then some bool
  else if b = 0xf6 then some null
  else if b = 0xf7 then some undefined
  else if b = 0xf8 then some simple
  else if b = 0xf9 then some f16
  else if b = 0xfa then some f32
  else if b = 0xfb then some f64
  else if b = 0xff then some stop
  else some (unknown b)

end ItemType

end Cbor

end Cose
