import ReleaseUpgrade.Yaml.Token

/-!
# YAML documents

`Node` is the tree of a document, with its tags, anchors and aliases.  `Node.ofTokens?` reads the
tokens of a text that holds one document.

A node that is missing where one may stand is an empty plain scalar.  In a flow sequence a single
pair is a mapping of one entry; a pair without a key there drops one more token, so it is well
formed only if the sequence ends early.
-/

namespace ReleaseUpgrade.Yaml

/-- a node of a document; anchors are named by `α` -/
inductive Node (α : Type) where
  | alias (target : α)
  | scalar (anchor : Option α) (tag : Option String) (text : String) (plain : Bool)
  | sequence (anchor : Option α) (tag : Option String) (items : List (Node α))
  | mapping (anchor : Option α) (tag : Option String) (entries : List (Node α × Node α))

namespace Node

/-- what stands where a node is missing -/
def empty {α : Type} : Node α := .scalar none none "" true

/-- the handles of tags that are declared, and what they stand for -/
abbrev Handles := List (String × String)

/-- the handles that need no declaration -/
def commonHandles : Handles := [("!", "!"), ("!!", "tag:yaml.org,2002:")]

/-- the tag that a handle and the rest of the tag stand for -/
def resolveTag? (handles : Handles) (handle rest : String) : Option String :=
  if handle = "" then some rest
  else
    match handles.find? fun h => h.1 = handle with
    | some (_, front) => some (front ++ rest)
    | none => none

/-- anchor and tag of a node -/
structure Properties where
  anchor : Option String := none
  tag : Option String := none

/-- anchor and tag in front of a node, in any order, and what follows them -/
def properties? (handles : Handles) (tokens : List Token) : Option (Properties × List Token) :=
  match tokens with
  | .anchor a :: .tag handle rest :: more | .tag handle rest :: .anchor a :: more =>
    (resolveTag? handles handle rest).map fun t => ({ anchor := some a, tag := some t }, more)
  | .anchor a :: more => some ({ anchor := some a }, more)
  | .tag handle rest :: more =>
    (resolveTag? handles handle rest).map fun t => ({ tag := some t }, more)
  | tokens => some ({}, tokens)

/-- a node and what follows it -/
abbrev Read := Option (Node String × List Token)

/-- the token ends an entry of a block sequence -/
def endsItem : Token → Bool
  | .blockEntry | .blockEnd => true
  | _ => false

/-- the token ends an entry of a sequence that is not indented -/
def endsLooseItem : Token → Bool
  | .blockEntry | .key | .value | .blockEnd => true
  | _ => false

/-- the token ends a key or a value of a block mapping -/
def endsPart : Token → Bool
  | .key | .value | .blockEnd => true
  | _ => false

/-- the token ends a key of a flow mapping -/
def endsFlowKey : Token → Bool
  | .value | .flowEntry | .flowMappingEnd => true
  | _ => false

/-- the token ends a value of a flow mapping -/
def endsFlowValue : Token → Bool
  | .flowEntry | .flowMappingEnd => true
  | _ => false

/-- the token ends the value of a pair in a flow sequence -/
def endsPairValue : Token → Bool
  | .flowEntry | .flowSequenceEnd => true
  | _ => false

/-- the token ends the key of a pair in a flow sequence -/
def endsPairKey : Token → Bool
  | .value => true
  | t => endsPairValue t

/-- the next token has the property -/
def meets (p : Token → Bool) : List Token → Bool
  | t :: _ => p t
  | [] => false

mutual

/-- a node; `block` if block collections may stand here, `loose` if a sequence that is not indented
may -/
def node? (handles : Handles) (block loose : Bool) : Nat → List Token → Read
  | 0, _ => none
  | _ + 1, .alias name :: rest => some (.alias name, rest)
  | fuel + 1, tokens =>
    match properties? handles tokens with
    | none => none
    | some (p, tokens) =>
      match tokens, block, loose with
      | .blockEntry :: _, _, true =>
        (looseItems? handles fuel [] tokens).map fun (items, rest) =>
          (.sequence p.anchor p.tag items, rest)
      | .scalar text plain :: rest, _, _ =>
        some (.scalar p.anchor (if p.tag = some "!" then none else p.tag) text plain, rest)
      | .flowSequenceStart :: rest, _, _ =>
        (flowItems? handles fuel true [] rest).map fun (items, rest) =>
          (.sequence p.anchor p.tag items, rest)
      | .flowMappingStart :: rest, _, _ =>
        (flowEntries? handles fuel true [] rest).map fun (entries, rest) =>
          (.mapping p.anchor p.tag entries, rest)
      | .blockSequenceStart :: rest, true, _ =>
        (items? handles fuel [] rest).map fun (items, rest) =>
          (.sequence p.anchor p.tag items, rest)
      | .blockMappingStart :: rest, true, _ =>
        (entries? handles fuel [] rest).map fun (entries, rest) =>
          (.mapping p.anchor p.tag entries, rest)
      | tokens, _, _ =>
        if p.anchor.isSome || p.tag.isSome then some (.scalar p.anchor p.tag "" true, tokens)
        else none

/-- a node, or an empty one before a token that ends its place -/
def nodeUnless? (handles : Handles) (ends : Token → Bool) (block loose : Bool) :
    Nat → List Token → Read
  | 0, _ => none
  | fuel + 1, tokens =>
    if meets ends tokens then some (empty, tokens) else node? handles block loose fuel tokens

/-- the entries of a block sequence to its end; `done` is in reverse -/
def items? (handles : Handles) :
    Nat → List (Node String) → List Token → Option (List (Node String) × List Token)
  | 0, _, _ => none
  | fuel + 1, done, tokens =>
    match tokens with
    | .blockEntry :: rest =>
      match nodeUnless? handles endsItem true false fuel rest with
      | some (n, rest) => items? handles fuel (n :: done) rest
      | none => none
    | .blockEnd :: rest => some (done.reverse, rest)
    | _ => none

/-- the entries of a sequence that is not indented -/
def looseItems? (handles : Handles) :
    Nat → List (Node String) → List Token → Option (List (Node String) × List Token)
  | 0, _, _ => none
  | fuel + 1, done, tokens =>
    match tokens with
    | .blockEntry :: rest =>
      match nodeUnless? handles endsLooseItem true false fuel rest with
      | some (n, rest) => looseItems? handles fuel (n :: done) rest
      | none => none
    | tokens => some (done.reverse, tokens)

/-- the entries of a block mapping to its end -/
def entries? (handles : Handles) : Nat → List (Node String × Node String) → List Token →
    Option (List (Node String × Node String) × List Token)
  | 0, _, _ => none
  | fuel + 1, done, tokens =>
    match tokens with
    | .key :: rest =>
      match nodeUnless? handles endsPart true true fuel rest with
      | none => none
      | some (k, .value :: rest) =>
        match nodeUnless? handles endsPart true true fuel rest with
        | some (v, rest) => entries? handles fuel ((k, v) :: done) rest
        | none => none
      | some (k, rest) => entries? handles fuel ((k, empty) :: done) rest
    | .blockEnd :: rest => some (done.reverse, rest)
    | _ => none

/-- the items of a flow sequence to its end; a comma stands before each but the first -/
def flowItems? (handles : Handles) : Nat → Bool → List (Node String) → List Token →
    Option (List (Node String) × List Token)
  | 0, _, _, _ => none
  | fuel + 1, first, done, tokens =>
    match afterComma? .flowSequenceEnd first tokens with
    | none => none
    | some (.flowSequenceEnd :: rest) => some (done.reverse, rest)
    | some (.key :: rest) =>
      match pairKey? handles fuel rest with
      | none => none
      | some (k, .value :: rest) =>
        match nodeUnless? handles endsPairValue false false fuel rest with
        | some (v, rest) =>
          flowItems? handles fuel false (.mapping none none [(k, v)] :: done) rest
        | none => none
      | some (k, rest) =>
        flowItems? handles fuel false (.mapping none none [(k, empty)] :: done) rest
    | some tokens =>
      match node? handles false false fuel tokens with
      | some (n, rest) => flowItems? handles fuel false (n :: done) rest
      | none => none

/-- the key of a pair in a flow sequence; an empty one takes the token behind it along -/
def pairKey? (handles : Handles) : Nat → List Token → Read
  | 0, _ => none
  | fuel + 1, tokens =>
    if meets endsPairKey tokens then some (empty, tokens.drop 1)
    else node? handles false false fuel tokens

/-- the entries of a flow mapping to its end; a comma stands before each but the first -/
def flowEntries? (handles : Handles) : Nat → Bool → List (Node String × Node String) →
    List Token → Option (List (Node String × Node String) × List Token)
  | 0, _, _, _ => none
  | fuel + 1, first, done, tokens =>
    match afterComma? .flowMappingEnd first tokens with
    | none => none
    | some (.flowMappingEnd :: rest) => some (done.reverse, rest)
    | some (.key :: rest) =>
      match nodeUnless? handles endsFlowKey false false fuel rest with
      | none => none
      | some (k, .value :: rest) =>
        match nodeUnless? handles endsFlowValue false false fuel rest with
        | some (v, rest) => flowEntries? handles fuel false ((k, v) :: done) rest
        | none => none
      | some (k, rest) => flowEntries? handles fuel false ((k, empty) :: done) rest
    | some tokens =>
      match node? handles false false fuel tokens with
      | some (n, rest) => flowEntries? handles fuel false ((n, empty) :: done) rest
      | none => none

/-- the tokens of the next part of a flow collection that ends with `last` -/
def afterComma? (last : Token) (first : Bool) (tokens : List Token) : Option (List Token) :=
  match tokens with
  | .flowEntry :: rest => if first then some tokens else some rest
  | t :: _ => if first || t = last then some tokens else none
  | [] => none

end

/-! ## documents -/

/-- the directives in front of a document: the handles in force, and what follows -/
def directives? : Handles → Bool → List Token → Option (Handles × List Token)
  | handles, versioned, .version major minor :: rest =>
    if versioned || major != 1 || (minor != 1 && minor != 2) then none
    else directives? handles true rest
  | handles, versioned, .tagHandle handle front :: rest =>
    if handles.any fun h => h.1 = handle then none
    else directives? (handles ++ [(handle, front)]) versioned rest
  | handles, _, tokens => some (handles ++ commonHandles, tokens)

/-- the token ends a document that has no content -/
def endsDocument : Token → Bool
  | .version .. | .tagHandle .. | .documentStart | .documentEnd => true
  | _ => false

/-- a sufficient number of steps for some tokens -/
def steps (tokens : List Token) : Nat := 4 * tokens.length + 8

/-- the content of a document after its marker -/
def content? (handles : Handles) (tokens : List Token) : Read :=
  if tokens.isEmpty || meets endsDocument tokens then some (empty, tokens)
  else node? handles true false (steps tokens) tokens

/-- a document with directives or a marker in front -/
def marked? (tokens : List Token) : Read :=
  match directives? [] false tokens with
  | some (handles, .documentStart :: rest) => content? handles rest
  | _ => none

/-- the first document -/
def first? (tokens : List Token) : Read :=
  match tokens with
  | [] => some (empty, [])
  | .version .. :: _ | .tagHandle .. :: _ | .documentStart :: _ => marked? tokens
  | tokens => node? commonHandles true false (steps tokens) tokens

/-- the document of the tokens of a text, which may hold no other -/
def ofTokens? (tokens : List Token) : Option (Node String) :=
  match first? tokens with
  | some (n, rest) => if rest.all (· = .documentEnd) then some n else none
  | none => none

end Node

end ReleaseUpgrade.Yaml
