import Cose.Cbor.Value

/-!
# Maps in label order

Integer labels come first, in numeric order, then texts in the order of their UTF-8 bytes. Inserting keeps
that order and replaces the value of a label that is there already, so a map built by insertions depends
only on the last value of each label.
-/

set_option autoImplicit false

namespace Cose

namespace Label

def lt : Label → Label → Prop
  | int i, int j => i < j
  | int _, text _ => True
  | text _, int _ => False
  | text s, text t => Bytes.ofText s < Bytes.ofText t

instance : LT Label := ⟨lt⟩

instance : DecidableRel (fun a b : Label => a < b)
  | int i, int j => inferInstanceAs (Decidable (i < j))
  | int _, text _ => inferInstanceAs (Decidable True)
  | text _, int _ => inferInstanceAs (Decidable False)
  | text s, text t => inferInstanceAs (Decidable (Bytes.ofText s < Bytes.ofText t))

end Label

abbrev Map := List (Label × Value)

namespace Map

def get? (m : Map) (l : Label) : Option Value := m.lookup l

def find? (m : Map) (label : Int64) : Option Value := m.get? (.int label)

def contains (m : Map) (l : Label) : Bool := (m.get? l).isSome

def insert : Map → Label → Value → Map
  | [], l, v => [(l, v)]
  | (k, x) :: m, l, v =>
    if l < k then (l, v) :: (k, x) :: m
    else if l = k then (l, v) :: m
    else (k, x) :: insert m l v

/-- Inserts the entries one after the other: of equal labels the last one wins. -/
def insertAll (m : Map) (entries : List (Label × Value)) : Map :=
  entries.foldl (fun m e => m.insert e.1 e.2) m

def ofList (entries : List (Label × Value)) : Map := insertAll [] entries

def insert? (m : Map) (label : Int64) : Option Value → Map
  | none => m
  | some v => m.insert (.int label) v

/-- The labels ascend, so no label stands twice. -/
def Ascending (m : Map) : Prop := m.Pairwise (fun e f => e.1 < f.1)

end Map

mutual

/-- Every map in the value has ascending labels, as all maps made by insertions have. -/
def Value.Ordered : Value → Prop
  | .array items => OrderedItems items
  | .map entries => Map.Ascending entries ∧ OrderedEntries entries
  | _ => True

def Value.OrderedItems : List Value → Prop
  | [] => True
  | x :: xs => x.Ordered ∧ OrderedItems xs

def Value.OrderedEntries : List (Label × Value) → Prop
  | [] => True
  | (_, x) :: es => x.Ordered ∧ OrderedEntries es

end

end Cose
