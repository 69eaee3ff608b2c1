import ReleaseUpgrade.Json.Token

/-!
# Reading JSON

`Json.ofBytes?` and `Json.ofText?` read one document.  The reader keeps the containers that are open
in a list and takes one token at a time, so nesting costs no stack.  A container inside 127 others
is too deep: it must still be well formed but is `unreadable`, and so is an object with a key that
is no text.
-/

namespace ReleaseUpgrade.Json

/-- a container that is not closed yet, its content last part first -/
inductive Frame where
  | items (done : List Json)
  /-- the fields read, the key whose value is next, and whether every key was text -/
  | fields (done : List (String × Json)) (key : String) (sound : Bool)

/-- what may come next -/
inductive Want where
  | value
  | valueOrEnd
  | key
  | keyOrEnd
  | colon
  | separator

/-- a document that has been read up to some token -/
structure Progress where
  want : Want := .value
  /-- the open containers, innermost first -/
  frames : List Frame := []
  /-- the document, once it is complete -/
  document : Option Json := none

namespace Progress

/-- nesting from which on a container has no value -/
def depthLimit : Nat := 128

/-- a value is complete -/
def put (p : Progress) (j : Json) : Progress :=
  match p.frames with
  | [] => { p with want := .separator, document := some j }
  | .items done :: outer => { p with want := .separator, frames := .items (j :: done) :: outer }
  | .fields done key sound :: outer =>
    { p with want := .separator, frames := .fields ((key, j) :: done) key sound :: outer }

/-- the innermost container is complete and has the value `j` -/
def close (p : Progress) (outer : List Frame) (j : Json) : Progress :=
  put { p with frames := outer } (if p.frames.length < depthLimit then j else .unreadable)

/-- the innermost container ends with a bracket -/
def closeItems? (p : Progress) : Option Progress :=
  match p.frames with
  | .items done :: outer => some (p.close outer (.arr done.reverse))
  | _ => none

/-- the innermost container ends with a brace -/
def closeFields? (p : Progress) : Option Progress :=
  match p.frames with
  | .fields done _ sound :: outer =>
    some (p.close outer (if sound then .obj done.reverse else .unreadable))
  | _ => none

/-- a value starts -/
def start? (p : Progress) : Token → Option Progress
  | .leftBracket => some { p with want := .valueOrEnd, frames := .items [] :: p.frames }
  | .leftBrace => some { p with want := .keyOrEnd, frames := .fields [] "" true :: p.frames }
  | .text s => some (p.put (s.elim .unreadable .str))
  | .leaf j => some (p.put j)
  | _ => none

/-- a key -/
def key? (p : Progress) : Token → Option Progress
  | .text s =>
    match p.frames with
    | .fields done _ sound :: outer =>
      let name := s.getD ""
      some { p with want := .colon, frames := .fields done name (sound && s.isSome) :: outer }
    | _ => none
  | _ => none

/-- one token further -/
def step? (p : Progress) (t : Token) : Option Progress :=
  match p.want, t with
  | .value, t => p.start? t
  | .valueOrEnd, .rightBracket => p.closeItems?
  | .valueOrEnd, t => p.start? t
  | .key, t => p.key? t
  | .keyOrEnd, .rightBrace => p.closeFields?
  | .keyOrEnd, t => p.key? t
  | .colon, .colon => some { p with want := .value }
  | .separator, .rightBracket => p.closeItems?
  | .separator, .rightBrace => p.closeFields?
  | .separator, .comma =>
    match p.frames with
    | .items _ :: _ => some { p with want := .value }
    | .fields .. :: _ => some { p with want := .key }
    | [] => none
  | _, _ => none

end Progress

/-- the document of a list of tokens -/
def ofTokens? (tokens : List Token) : Option Json := do
  let p ← tokens.foldlM Progress.step? {}
  if p.frames.isEmpty then p.document else none

/-- the document of UTF-8 bytes -/
def ofBytes? (bytes : List UInt8) : Option Json := do ofTokens? (← Token.ofBytes? bytes)

/-- the document of a text -/
def ofText? (text : String) : Option Json := ofBytes? text.toUTF8.toList

end ReleaseUpgrade.Json
