import ReleaseUpgrade.Json.Basic
import ReleaseUpgrade.Yaml.Core
import ReleaseUpgrade.Yaml.Node
import ReleaseUpgrade.Yaml.Reading

/-!
# The value of a YAML document

`Yaml.ofText?` reads a YAML text as a JSON document.

Aliases stand for the node with their anchor.  An anchor gets as its number how many names of
anchors stand before it; so a name that is used again can share its number with the next new name,
and of the nodes with one number the last one counts.  A document may follow only a hundred aliases
for each of its parts.
-/

namespace ReleaseUpgrade.Yaml

namespace Node

/-! ## numbers of anchors -/

/-- the anchors seen so far, by name -/
abbrev Names := Dict Nat

/-- the number of an anchor, if a node has one -/
def numberAnchor (names : Names) : Option String → Names × Option Nat
  | none => (names, none)
  | some name => (Dict.insert name names.length names, some names.length)

mutual

/-- the node with numbers for names; an alias must come after its anchor -/
def number? (names : Names) : Node String → Option (Names × Node Nat)
  | .alias name => (Dict.get? name names).map fun n => (names, .alias n)
  | .scalar anchor tag text plain =>
    let (names, anchor) := numberAnchor names anchor
    some (names, .scalar anchor tag text plain)
  | .sequence anchor tag items =>
    let (names, anchor) := numberAnchor names anchor
    (numberItems? names items).map fun (names, items) => (names, .sequence anchor tag items)
  | .mapping anchor tag entries =>
    let (names, anchor) := numberAnchor names anchor
    (numberEntries? names entries).map fun (names, entries) =>
      (names, .mapping anchor tag entries)

def numberItems? (names : Names) : List (Node String) → Option (Names × List (Node Nat))
  | [] => some (names, [])
  | n :: rest =>
    match number? names n with
    | none => none
    | some (names, n) =>
      (numberItems? names rest).map fun (names, rest) => (names, n :: rest)

def numberEntries? (names : Names) :
    List (Node String × Node String) → Option (Names × List (Node Nat × Node Nat))
  | [] => some (names, [])
  | (k, v) :: rest =>
    match number? names k with
    | none => none
    | some (names, k) =>
      match number? names v with
      | none => none
      | some (names, v) =>
        (numberEntries? names rest).map fun (names, rest) => (names, (k, v) :: rest)

end

/-- the number of the node's anchor -/
def anchor? : Node Nat → Option Nat
  | .alias _ => none
  | .scalar anchor .. | .sequence anchor .. | .mapping anchor .. => anchor

mutual

/-- the parts of a node: itself, then what it holds, in the order of the text -/
def parts (n : Node Nat) : List (Node Nat) :=
  match n with
  | .alias _ | .scalar .. => [n]
  | .sequence _ _ items => n :: itemParts items
  | .mapping _ _ entries => n :: entryParts entries

def itemParts : List (Node Nat) → List (Node Nat)
  | [] => []
  | n :: rest => parts n ++ itemParts rest

def entryParts : List (Node Nat × Node Nat) → List (Node Nat)
  | [] => []
  | (k, v) :: rest => parts k ++ parts v ++ entryParts rest

end

/-- a collection counts for two, its start and its end -/
def weight : Node Nat → Nat
  | .alias _ | .scalar .. => 1
  | .sequence .. | .mapping .. => 2

end Node

/-- a document whose anchors have numbers -/
structure Document where
  root : Node Nat
  /-- the nodes with anchors, in the order of the text -/
  anchors : List (Nat × Node Nat)
  /-- how often an alias may be followed -/
  aliasLimit : Nat

namespace Document

def ofNode? (n : Node String) : Option Document := do
  let (_, root) ← n.number? []
  let parts := root.parts
  some {
    root
    anchors := parts.filterMap fun n => n.anchor?.map (·, n)
    aliasLimit := 100 * parts.foldl (fun n part => n + part.weight) 0 }

/-- the last node with a number -/
def target? (d : Document) (number : Nat) : Option (Node Nat) :=
  (d.anchors.reverse.find? fun a => a.1 = number).map (·.2)

/-- the node itself, or the one that an alias stands for; `used` aliases have been followed -/
def follow? (d : Document) (used : Nat) : Node Nat → Option (Node Nat × Nat)
  | .alias number =>
    if used < d.aliasLimit then (d.target? number).map (·, used + 1) else none
  | n => some (n, used)

/-- an integer of at most 64 bits -/
def integer? (n : Int) : Option Json :=
  if -(Nat.pow 2 63 : Int) ≤ n && n < Nat.pow 2 64 then some (.int n) else none

/-- a double; what is not finite is null -/
def double (x : Float) : Json := if x.isFinite then .float x else .null

/-- the value of a plain scalar without tag -/
def plain? (text : String) : Option Json :=
  match Core.ofPlain text with
  | .null => some .null
  | .bool b => some (.bool b)
  | .int n => integer? n
  | .float x => some (double x)
  | .text => some (.str text)

/-- where the common tags come from -/
def commonTag : String := "tag:yaml.org,2002:"

/-- the tag has a meaning of its own here, which no value has -/
def isForeign (tag : Option String) : Bool :=
  match tag with
  | some t => t.toList.head? = some '!'
  | none => false

/-- the value of a scalar -/
def scalar? (tag : Option String) (text : String) (isPlain : Bool) : Option Json :=
  match tag with
  | none => if isPlain then plain? text else some (.str text)
  | some t =>
    if isForeign tag then none
    else if t = commonTag ++ "bool" then (Core.bool? text).map .bool
    else if t = commonTag ++ "int" then (Core.int? text).bind integer?
    else if t = commonTag ++ "float" then (Core.float? text).map double
    else if t = commonTag ++ "null" then if Core.isNullWord text then some .null else none
    else some (.str text)

/-- the text of a key; its tag does not count -/
def key? (d : Document) (used : Nat) (n : Node Nat) : Option (String × Nat) :=
  match d.follow? used n with
  | some (.scalar _ _ text _, used) => some (text, used)
  | _ => none

/-- a function for each item in turn, which counts the aliases -/
def each? {α β : Type} (f : Nat → α → Option (β × Nat)) : Nat → List α → Option (List β × Nat)
  | used, [] => some ([], used)
  | used, a :: rest =>
    match f used a with
    | none => none
    | some (b, used) => (each? f used rest).map fun (bs, used) => (b :: bs, used)

/-- the value of a node with at most `depth` collections around each of its parts, and how many
aliases have been followed after it -/
def value? (d : Document) : Nat → Nat → Node Nat → Option (Json × Nat)
  | depth, used, n =>
    match d.follow? used n with
    | none | some (.alias _, _) => none
    | some (.scalar _ tag text plain, used) => (scalar? tag text plain).map (·, used)
    | some (.sequence _ tag items, used) =>
      match depth with
      | 0 => none
      | depth + 1 =>
        if isForeign tag then none
        else (each? (value? d depth) used items).map fun (js, used) => (.arr js, used)
    | some (.mapping _ tag entries, used) =>
      match depth with
      | 0 => none
      | depth + 1 =>
        if isForeign tag then none
        else
          let entry (used : Nat) (e : Node Nat × Node Nat) : Option ((String × Json) × Nat) :=
            match d.key? used e.1 with
            | none => none
            | some (k, used) => (value? d depth used e.2).map fun (v, used) => ((k, v), used)
          (each? entry used entries).map fun (fields, used) => (.obj (Dict.ofList fields), used)

/-- how many collections may stand in each other -/
def depthLimit : Nat := 128

end Document

/-- the value of a YAML text -/
def ofText? (s : String) : Option Json := do
  let d ← Document.ofNode? (← Node.ofTokens? (← Token.ofText? s))
  (d.value? Document.depthLimit 0 d.root).map (·.1)

end ReleaseUpgrade.Yaml
