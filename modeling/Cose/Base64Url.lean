import Cose.Error

/-!
# Base64url

Bytes are cut into groups of six bits, and each group is written as a symbol. The written form has no
padding. Reading also takes trailing padding of any length and the two symbols of ordinary base64, and
refuses a last symbol whose unused bits are not zero, so every byte string has one reading up to these.
-/

set_option autoImplicit false

namespace Cose

namespace Base64Url

def symbol (digit : UInt8) : UInt8 :=
  if digit < 26 then digit + 65
  else if digit < 52 then digit + 71
  else if digit < 62 then digit - 4
  else if digit = 62 then 45
  else 95

def digit? (symbol : UInt8) : Option UInt8 :=
  if 65 ≤ symbol ∧ symbol ≤ 90 then some (symbol - 65)
  else if 97 ≤ symbol ∧ symbol ≤ 122 then some (symbol - 71)
  else if 48 ≤ symbol ∧ symbol ≤ 57 then some (symbol + 4)
  else if symbol = 43 then some 62
  else if symbol = 47 then some 63
  else none

def digits : Bytes → List UInt8
  | [] => []
  | [a] => [a >>> 2, (a &&& 3) <<< 4]
  | [a, b] => [a >>> 2, (a &&& 3) <<< 4 ||| b >>> 4, (b &&& 15) <<< 2]
  | a :: b :: c :: rest =>
    (a >>> 2) :: ((a &&& 3) <<< 4 ||| b >>> 4) :: ((b &&& 15) <<< 2 ||| c >>> 6) :: (c &&& 63) ::
      digits rest

/-- The bytes with the given groups of six bits, if the groups end where a byte does but for zero bits. -/
def ofDigits? : List UInt8 → Option Bytes
  | [] => some []
  | [_] => none
  | [p, q] => if q &&& 15 = 0 then some [p <<< 2 ||| q >>> 4] else none
  | [p, q, r] =>
    if r &&& 3 = 0 then some [p <<< 2 ||| q >>> 4, q <<< 4 ||| r >>> 2] else none
  | p :: q :: r :: s :: rest =>
    (ofDigits? rest).map fun bs =>
      (p <<< 2 ||| q >>> 4) :: (q <<< 4 ||| r >>> 2) :: (r <<< 6 ||| s) :: bs

def encode (bs : Bytes) : String :=
  String.ofList ((digits bs).map fun d => Char.ofNat (symbol d).toNat)

def normalize (text : String) : Bytes :=
  (((Bytes.ofText text).reverse.dropWhile (· == 61)).reverse).map fun b =>
    if b = 45 then 43 else if b = 95 then 47 else b

/-- The values of the symbols; the first byte that is none is reported with its offset. -/
def readDigits (offset : Nat) : Bytes → Except Base64Error (List UInt8)
  | [] => .ok []
  | b :: rest =>
    match digit? b with
    | none => .error (.symbol b offset)
    | some d => (readDigits (offset + 1) rest).map (d :: ·)

def decode (text : String) : Result Bytes :=
  let symbols := normalize text
  if symbols.length % 4 = 1 then .error (.invalidBase64 (.length (Bytes.ofText text).length))
  else
    match readDigits 0 symbols with
    | .error e => .error (.invalidBase64 e)
    | .ok ds =>
      match ofDigits? ds with
      | some bs => .ok bs
      | none => .error (.invalidBase64 (.lastSymbol (symbols.getLastD 0) (symbols.length - 1)))

end Base64Url

end Cose
