import ReleaseUpgrade.Dict

/-!
# JSON values

`Json` is a JSON document as a tree.  A number is an integer or a double, told apart by how it is
written.  The fields of an object keep the order and the repetitions of the text they were read
from; `Json.sorted` puts them in order of their keys, the last of equal keys counting.

A document may hold parts that can be skipped but have no value: text with an unpaired surrogate,
a number beyond the doubles, nesting that is too deep.  Such a part is the leaf `unreadable`.
-/

namespace ReleaseUpgrade

/-- a number as it is written: with a fraction or an exponent it is a double -/
inductive Number where
  | int (value : Int)
  | float (value : Float)

/-- a JSON document -/
inductive Json where
  | null
  | bool (value : Bool)
  | num (value : Number)
  | str (value : String)
  | arr (items : List Json)
  | obj (fields : List (String × Json))
  /-- a part of the text that can be skipped but not read -/
  | unreadable

namespace Json

instance : Inhabited Json := ⟨.null⟩

/-- an integer -/
abbrev int (n : Int) : Json := .num (.int n)

/-- a natural number -/
abbrev nat (n : Nat) : Json := .num (.int n)

/-- a double -/
abbrev float (x : Float) : Json := .num (.float x)

def isNull : Json → Bool
  | .null => true
  | _ => false

mutual

/-- every part of the document has a value -/
def readable : Json → Bool
  | .arr items => readableItems items
  | .obj fields => readableFields fields
  | .unreadable => false
  | _ => true

def readableItems : List Json → Bool
  | [] => true
  | j :: rest => readable j && readableItems rest

def readableFields : List (String × Json) → Bool
  | [] => true
  | (_, j) :: rest => readable j && readableFields rest

end

mutual

/-- every object with its fields in order of their keys, the last of equal keys counting -/
def sorted : Json → Json
  | .arr items => .arr (sortedItems items)
  | .obj fields => .obj (Dict.ofList (sortedFields fields))
  | j => j

def sortedItems : List Json → List Json
  | [] => []
  | j :: rest => sorted j :: sortedItems rest

def sortedFields : List (String × Json) → List (String × Json)
  | [] => []
  | (k, j) :: rest => (k, sorted j) :: sortedFields rest

end

/-- the field `k` of an object -/
def field? (k : String) : Json → Option Json
  | .obj fields => Dict.get? k fields
  | _ => none

/-- the text of a string -/
def str? : Json → Option String
  | .str s => some s
  | _ => none

/-- the truth value -/
def bool? : Json → Option Bool
  | .bool b => some b
  | _ => none

/-- an integer, of any size that a number without fraction and exponent can have -/
def int? : Json → Option Int
  | .num (.int n) => some n
  | _ => none

/-- the items of an array -/
def items? : Json → Option (List Json)
  | .arr items => some items
  | _ => none

/-- an array of texts -/
def ofStrings (ss : List String) : Json := .arr (ss.map .str)

/-- an object that maps names to texts -/
def ofStringDict (d : Dict String) : Json := .obj (Dict.mapValues .str d)

/-- an object without the fields that have no value -/
def ofFields (fields : List (String × Option Json)) : Json :=
  .obj (fields.filterMap fun f => f.2.map (f.1, ·))

end Json

end ReleaseUpgrade
