import Cose.Cbor.Map
import Cose.Cbor.Error

/-!
# Reading CBOR

A reader takes the remaining bytes and gives a result with the bytes after it. Heads of any width are
accepted; lengths must be definite. Nesting is bounded by the number of levels that are left, which is also
what the recursion descends on; the elements of a container are counted down. Where messages name a
position, it is found from the size of the whole input. From labels upwards the readers run in any monad that
can fail and is told where something begins; where nothing else is said, it is the one that only fails.
-/

set_option autoImplicit false

namespace Cose

namespace Cbor

def splitBytes (n : Nat) (bs : Bytes) : Except Fault (Bytes × Bytes) :=
  let taken := bs.take n
  if taken.length = n then .ok (taken, bs.drop n) else .error .endOfInput

def readArgument (info : UInt8) (bs : Bytes) : Except Fault (Nat × Bytes) :=
  if info < 24 then .ok (info.toNat, bs)
  else do
    let (digits, rest) ← splitBytes (2 ^ (info.toNat - 24)) bs
    .ok (Bytes.toNat digits, rest)

def peekType : Bytes → Except Fault ItemType
  | [] => .error .endOfInput
  | b :: rest =>
    match ItemType.ofInitial? b rest.head? with
    | some ty => .ok ty
    | none => .error .endOfInput

def info (initial : UInt8) : UInt8 := initial &&& 0x1f

def readInt (size : Nat) : Bytes → Except Fault (Int64 × Bytes)
  | [] => .error .endOfInput
  | b :: rest => do
    let (n, after) ← readArgument (info b) rest
    if n < 2 ^ 63 then
      .ok (if b < 0x20 then Int64.ofInt n else Int64.ofInt (-1 - n), after)
    else .error (.overflow n (size - (rest.length + 1)))

def readString : Bytes → Except Fault (Bytes × Bytes)
  | [] => .error .endOfInput
  | b :: rest => do
    let (n, after) ← readArgument (info b) rest
    splitBytes n after

def readText (size : Nat) (bs : Bytes) : Except Fault (String × Bytes) := do
  let (content, rest) ← readString bs
  match Bytes.toText? content with
  | some s => .ok (s, rest)
  | none => .error (.invalidText (size - bs.length))

def readCount : Bytes → Except Fault (Nat × Bytes)
  | [] => .error .endOfInput
  | b :: rest => readArgument (info b) rest

/-- The entry count of a map, `none` for an indefinite one. Anything may stand where a map is expected; if
it is something else, its type is looked up when the initial byte has been read. -/
def readMapCount (size : Nat) : Bytes → Except Fault (Option Nat × Bytes)
  | [] => .error .endOfInput
  | b :: rest =>
    let position := size - (rest.length + 1)
    if b &&& 0xe0 = 0xa0 then
      if info b = 31 then .ok (none, rest)
      else if info b < 28 then do
        let (n, after) ← readArgument (info b) rest
        .ok (some n, after)
      else .error (.badLength (.unknown (info b)) position)
    else
      match ItemType.ofInitial? b rest.tail.head? with
      | some ty => .error (.notMap ty position)
      | none => .error .endOfInput

/-- What a reader runs in: it can fail, and it is told the place at which a label, an item or the outermost map
begins. -/
class Reading (m : Type → Type) extends Monad m where
  fail {α : Type} (e : Error) : m α
  begun {α : Type} (place : Bytes) (run : m α) : m α

export Reading (fail begun)

/-- Reading that takes no note of places. -/
@[default_instance]
instance : Reading (Except Error) where
  fail := .error
  begun _ run := run

abbrev ReaderIn (m : Type → Type) (α : Type) := Bytes → m (α × Bytes)

abbrev Reader (α : Type) := ReaderIn (Except Error) α

section

variable {m : Type → Type} [Reading m] {α : Type}

def during (context : Context) : Except Fault α → m α
  | .ok x => pure x
  | .error fault => fail (.read context fault)

def readMany (one : ReaderIn m α) : Nat → ReaderIn m (List α)
  | 0, bs => pure ([], bs)
  | n + 1, bs => do
    let (x, rest) ← one bs
    let (xs, after) ← readMany one n rest
    pure (x :: xs, after)

def readLabel (size : Nat) : ReaderIn m Label := fun bs => begun bs do
  let ty ← during .label (peekType bs)
  if ty.isInt then
    let (i, rest) ← during .intLabel (readInt size bs)
    pure (.int i, rest)
  else if ty = .string then
    let (s, rest) ← during .textLabel (readText size bs)
    pure (.text s, rest)
  else fail (.unsupportedLabel ty)

def readEntry (size : Nat) (item : ReaderIn m Value) : ReaderIn m (Label × Value) := fun bs => do
  let (l, rest) ← readLabel size bs
  let (v, after) ← item rest
  pure ((l, v), after)

/-- A map whose values are read by `item`; without it the levels are used up. -/
def readMapWith (size : Nat) (item : Option (ReaderIn m Value)) : ReaderIn m Map := fun bs => do
  let (count, rest) ← during .map (readMapCount size bs)
  match item, count with
  | none, _ => fail .tooDeep
  | some _, none => fail .indefiniteMap
  | some item, some n =>
    let (entries, after) ← readMany (readEntry size item) n rest
    pure (Map.ofList entries, after)

def readArrayWith (item : Option (ReaderIn m Value)) : ReaderIn m (List Value) := fun bs => do
  let (n, rest) ← during .array (readCount bs)
  match item with
  | none => fail .tooDeep
  | some item => readMany item n rest

def readValueWith (size : Nat) (item : Option (ReaderIn m Value)) : ReaderIn m Value := fun bs => begun bs do
  let ty ← during .item (peekType bs)
  if ty.isInt then
    let (i, rest) ← during .int (readInt size bs)
    pure (.int i, rest)
  else match ty with
    | .bytes =>
      let (content, rest) ← during .bytes (readString bs)
      pure (.bytes content, rest)
    | .string =>
      let (s, rest) ← during .text (readText size bs)
      pure (.text s, rest)
    | .bool => pure (.bool (bs.head? == some 0xf5), bs.tail)
    | .null => pure (.null, bs.tail)
    | .array =>
      let (items, rest) ← readArrayWith item bs
      pure (.array items, rest)
    | .map =>
      let (m, rest) ← readMapWith size item bs
      pure (.map m, rest)
    | ty => fail (.unsupportedValue ty)

/-- An item that nests at most the given number of levels. -/
def readValue (size : Nat) : Nat → ReaderIn m Value
  | 0 => readValueWith size none
  | levels + 1 => readValueWith size (some (readValue size levels))

def readMap (size : Nat) : Nat → ReaderIn m Map
  | 0 => fun bs => begun bs (readMapWith size none bs)
  | levels + 1 => fun bs => begun bs (readMapWith size (some (readValue size levels)) bs)

def finish (trailing : Error) (run : m (α × Bytes)) : m α := do
  let (x, rest) ← run
  if rest.isEmpty then pure x else fail trailing

def decode (bs : Bytes) : m Value := finish .trailingItem (readValue bs.length maxDepth bs)

/-- The map that the input consists of; the empty input is the empty map. -/
def decodeMap (bs : Bytes) : m Map :=
  if bs.isEmpty then pure [] else finish .trailingMap (readMap bs.length maxDepth bs)

end

end Cbor

end Cose
