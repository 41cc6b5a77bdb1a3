import Cose.Cbor.ItemType

/-!
# Refusals of the CBOR reader

A fault is what went wrong with the bytes, its context what was being read. The remaining errors are items
that are well-formed CBOR and not part of the accepted subset.
-/

set_option autoImplicit false

namespace Cose

namespace Cbor

inductive Fault where
  | endOfInput
  /-- An integer outside the signed 64-bit range, with its raw argument. -/
  | overflow (argument : Nat) (position : Nat)
  | invalidText (position : Nat)
  | notMap (found : ItemType) (position : Nat)
  /-- A map head whose low five bits do not announce a length. -/
  | badLength (found : ItemType) (position : Nat)
  deriving DecidableEq, Repr

namespace Fault

def message : Fault → String
  | endOfInput => "end of input bytes"
  | overflow n p => s!"{n} overflows target type at position {p}: when converting u64 to i64"
  | invalidText p => s!"invalid utf-8 at position {p}"
  | notMap ty p => s!"unexpected type {ty.words} at position {p}: expected map"
  | badLength ty p => s!"unexpected type {ty.words} at position {p}: expected u64"

end Fault

inductive Context where
  | map | label | intLabel | textLabel | item | int | bytes | text | array
  deriving DecidableEq, Repr

namespace Context

def message : Context → String
  | map => "failed to read map"
  | label => "failed to read map key"
  | intLabel => "failed to decode int map key"
  | textLabel => "failed to decode text map key"
  | item => "failed to read item"
  | int => "failed to decode int"
  | bytes => "failed to decode bstr"
  | text => "failed to decode tstr"
  | array => "failed to read array"

end Context

/-- The number of arrays and maps that may stand inside one another, the outermost counted. -/
def maxDepth : Nat := 64

inductive Error where
  | read (context : Context) (fault : Fault)
  | unsupportedValue (found : ItemType)
  | unsupportedLabel (found : ItemType)
  | tooDeep
  | indefiniteMap
  | trailingMap
  | trailingItem
  deriving DecidableEq, Repr

namespace Error

def message : Error → String
  | read c f => s!"{c.message}: {f.message}"
  | unsupportedValue ty => s!"unsupported value type: {ty.identifier}"
  | unsupportedLabel ty => s!"unsupported map key type: {ty.identifier}"
  | tooDeep => s!"nesting too deep: more than {maxDepth} levels"
  | indefiniteMap => "indefinite-length maps are not supported"
  | trailingMap => "trailing bytes after map"
  | trailingItem => "trailing bytes after item"

end Error

end Cbor

end Cose
