import Cose.Key.Codec
import Cose.Text.Quoted

/-!
# Registries of key types

A registry says how the maps of a key type are read. Its registrations stand in the order of their
identifiers, one for each. A registration once made is never changed: making it again is allowed, another one
for its identifier is refused. Programs may read the maps of their own key types in ways of their own, so the
type of these ways is a parameter; it is that of the library if nothing else is said.
-/

set_option autoImplicit false

namespace Cose

inductive Factory where
  | okp | ec2 | symmetric | registered
  deriving DecidableEq, Repr

def Factory.build : Factory → Map → Result Key
  | okp => Key.okpOfMap
  | ec2 => Key.ec2OfMap
  | symmetric => Key.symmetricOfMap
  | registered => Key.registeredOfMap

/-- The ways of reading a key map that a program has, among them those of the library. -/
class KeyReader (φ : Type) where
  ofFactory : Factory → φ
  read : φ → Map → Result Key
  read_ofFactory (f : Factory) : read (ofFactory f) = f.build

instance : KeyReader Factory := ⟨id, Factory.build, fun _ => rfl⟩

structure Registration (φ : Type := Factory) where
  id : Int64
  name : String
  factory : φ
  deriving DecidableEq

structure Registry (φ : Type := Factory) where
  entries : List (Registration φ)
  deriving DecidableEq

namespace Registry

variable {φ : Type}

def empty : Registry φ := ⟨[]⟩

def builtin : Registry := ⟨[⟨1, "OKP", .okp⟩, ⟨2, "EC2", .ec2⟩, ⟨4, "Symmetric", .symmetric⟩]⟩

def builtinIn [KeyReader φ] : Registry φ :=
  ⟨builtin.entries.map fun e => ⟨e.id, e.name, KeyReader.ofFactory e.factory⟩⟩

def find? (r : Registry φ) (id : Int64) : Option (Registration φ) := r.entries.find? (·.id == id)

def place (reg : Registration φ) : List (Registration φ) → List (Registration φ)
  | [] => [reg]
  | e :: es => if reg.id < e.id then reg :: e :: es else e :: place reg es

def register [DecidableEq φ] (r : Registry φ) (reg : Registration φ) : Result (Registry φ) :=
  match r.find? reg.id with
  | none => .ok ⟨place reg r.entries⟩
  | some held => if held = reg then .ok r else .error (.keyTypeAlreadyRegistered reg.id)

/-- The registry with a registration if it does not collide, and else as it is. -/
def extend [DecidableEq φ] (r : Registry φ) (reg : Registration φ) : Registry φ :=
  match r.register reg with
  | .ok r' => r'
  | .error _ => r

def extendAll [DecidableEq φ] (r : Registry φ) (regs : List (Registration φ)) : Registry φ :=
  regs.foldl extend r

def withExtensions [DecidableEq φ] [KeyReader φ] (regs : List (Registration φ)) : Registry φ :=
  builtinIn.extendAll regs

def isRegistered (r : Registry φ) (id : Int64) : Bool := (r.find? id).isSome

def keyType? (r : Registry φ) (id : Int64) : Option KeyType :=
  if r.isRegistered id then some (KeyType.ofRegistered id) else none

def describe (r : Registry φ) : String :=
  "\x7b" ++ String.intercalate ", " (r.entries.map fun e => s!"{e.id}: {Text.quote e.name}") ++ "\x7d"

def decode [KeyReader φ] (r : Registry φ) (m : Map) : Result Key :=
  match m.find? Parameter.kty.label with
  | some (.int id) =>
    match r.find? id with
    | some reg => KeyReader.read reg.factory m
    | none => .error (.keyTypeUnknown (.unregistered id))
  | some v => .error (.keyTypeUnknown (.notInt v.kind))
  | none => .error (.keyTypeUnknown .missing)

def decodeBytes [KeyReader φ] (r : Registry φ) (bs : Bytes) : Result Key := do
  let m ← Map.ofBytes bs
  r.decode m

end Registry

end Cose
