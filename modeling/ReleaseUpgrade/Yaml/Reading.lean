import ReleaseUpgrade.Yaml.Scalar
import ReleaseUpgrade.Yaml.Property

/-!
# Cutting YAML text into tokens

A key is known as a key only when its colon is met.  `Reading` therefore remembers where a key may
have started: the token that makes it a key, and the one that starts its block, are put in front of
the tokens read since.  Such a start is forgotten at the end of its line or 1024 characters later;
at the indentation of its block nothing but a key may stand, so there it is an error.

* `Reading.step?`      one token further;
* `Token.ofText?`      the tokens of a whole text.
-/

namespace ReleaseUpgrade.Yaml

/-- a place where a key may have started -/
structure KeyStart where
  /-- nothing but a key may stand here -/
  required : Bool
  /-- how many tokens stand before it -/
  number : Nat
  start : Glyph

/-- a text that is cut into tokens up to some place -/
structure Reading where
  rest : Glyphs
  /-- the tokens, last one first -/
  tokens : List Token := []
  /-- the column of the innermost block, -1 outside of all blocks -/
  indent : Int := -1
  /-- the columns of the blocks around it -/
  outerIndents : List Int := []
  /-- a key without sign may start here -/
  keyAllowed : Bool := true
  /-- the start of a key in the innermost collection -/
  keyStart : Option KeyStart := none
  /-- the starts of keys around the open flow collections, innermost first -/
  outerKeyStarts : List (Option KeyStart) := []

namespace Reading

/-- a flow collection is open -/
def inFlow (r : Reading) : Bool := !r.outerKeyStarts.isEmpty

/-- the next `n` characters are read -/
def skip (r : Reading) (n : Nat) : Reading := { r with rest := r.rest.drop n }

def emit (r : Reading) (t : Token) : Reading := { r with tokens := t :: r.tokens }

/-- a token after the first `n` tokens -/
def emitAt (r : Reading) (n : Nat) (t : Token) : Reading :=
  let later := r.tokens.length - n
  { r with tokens := r.tokens.take later ++ t :: r.tokens.drop later }

/-! ## blanks and comments -/

/-- what follows the blanks, comments and line breaks in front, and whether a key may start there -/
def skipSpace (inFlow : Bool) : Bool → Glyphs → Bool × Glyphs
  | keyAllowed, [] => (keyAllowed, [])
  | keyAllowed, g :: rest =>
    if g.char = ' ' || (g.char = '\ufeff' && g.column = 0) ||
        (g.char = '\t' && (inFlow || !keyAllowed)) then
      skipSpace inFlow keyAllowed rest
    else if isBreak g.char then skipSpace inFlow (keyAllowed || !inFlow) rest
    else (keyAllowed, g :: rest)

/-- the same over all the lines that hold comments only -/
def skipLines (inFlow : Bool) : Nat → Bool → Glyphs → Bool × Glyphs
  | 0, keyAllowed, gs => (keyAllowed, gs)
  | fuel + 1, keyAllowed, gs =>
    let (keyAllowed, gs) := skipSpace inFlow keyAllowed gs
    if next gs = '#' then skipLines inFlow fuel keyAllowed (skipComment gs) else (keyAllowed, gs)

/-- at the next token -/
def toToken (r : Reading) : Reading :=
  let (keyAllowed, rest) := skipLines r.inFlow (r.rest.length + 1) r.keyAllowed r.rest
  { r with keyAllowed, rest }

/-! ## starts of keys -/

/-- the start of a key is not forgotten at the place `g` -/
def isFresh (g : Glyph) (k : KeyStart) : Bool :=
  g.line ≤ k.start.line && g.index ≤ k.start.index + 1024

/-- one start of a key at the place `g`: forgotten or not -/
def refresh? (g : Glyph) : Option KeyStart → Option (Option KeyStart)
  | none => some none
  | some k => if isFresh g k then some (some k) else if k.required then none else some none

/-- the starts of keys that are too far back are forgotten -/
def refreshKeys? (r : Reading) : Option Reading :=
  match r.rest with
  | [] => some r
  | g :: _ => do
    let keyStart ← refresh? g r.keyStart
    let outerKeyStarts ← r.outerKeyStarts.mapM (refresh? g)
    some { r with keyStart, outerKeyStarts }

/-- what is read here does not continue a key -/
def dropKey? (r : Reading) : Option Reading :=
  match r.keyStart with
  | some k => if k.required then none else some { r with keyStart := none }
  | none => some r

/-- a key may start here, if one may at all -/
def noteKey? (r : Reading) : Option Reading :=
  match r.keyAllowed, r.rest with
  | true, g :: _ => do
    let r ← r.dropKey?
    some { r with keyStart := some ⟨!r.inFlow && r.indent = g.column, r.tokens.length, g⟩ }
  | _, _ => some r

/-! ## blocks -/

/-- a block starts at the column, unless one is there already; its token has the given place -/
def openBlock (r : Reading) (column : Nat) (place : Nat) (t : Token) : Reading :=
  if !r.inFlow && r.indent < column then
    { r with indent := column, outerIndents := r.indent :: r.outerIndents }.emitAt place t
  else r

/-- the blocks with more columns end; `indents` are those around the innermost one -/
def closeFrom (column : Int) (r : Reading) : List Int → Reading
  | [] => r
  | outer :: indents =>
    if column < r.indent then
      closeFrom column ({ r with indent := outer, outerIndents := indents }.emit .blockEnd) indents
    else r

/-- the blocks with more columns end, unless a flow collection is open -/
def closeBlocks (r : Reading) (column : Int) : Reading :=
  if r.inFlow then r else closeFrom column r r.outerIndents

/-! ## tokens -/

/-- a directive -/
def directive? (r : Reading) : Option Reading := do
  let r ← (r.closeBlocks (-1)).dropKey?
  let (token, rest) ← Property.directive? (r.rest.drop 1)
  some ({ r with keyAllowed := false, rest }.emit token)

/-- a marker at the start or the end of a document -/
def marker? (r : Reading) (t : Token) : Option Reading := do
  let r ← (r.closeBlocks (-1)).dropKey?
  some (({ r with keyAllowed := false }.skip 3).emit t)

/-- a flow collection starts -/
def openFlow? (r : Reading) (t : Token) : Option Reading := do
  let r ← r.noteKey?
  some (({ r with
    keyAllowed := true, keyStart := none
    outerKeyStarts := r.keyStart :: r.outerKeyStarts }.skip 1).emit t)

/-- a flow collection ends -/
def closeFlow? (r : Reading) (t : Token) : Option Reading := do
  let r ← r.dropKey?
  let r := match r.outerKeyStarts with
    | [] => r
    | k :: outer => { r with keyStart := k, outerKeyStarts := outer }
  some (({ r with keyAllowed := false }.skip 1).emit t)

/-- a comma in a flow collection -/
def flowEntry? (r : Reading) : Option Reading := do
  let r ← r.dropKey?
  some (({ r with keyAllowed := true }.skip 1).emit .flowEntry)

/-- a sign that may start a block at its column -/
def blockSign? (r : Reading) (start : Token) : Option Reading :=
  if r.inFlow then some r
  else if r.keyAllowed then some (r.openBlock (column r.rest) r.tokens.length start)
  else none

/-- the hyphen of an entry -/
def blockEntry? (r : Reading) : Option Reading := do
  let r ← (← r.blockSign? .blockSequenceStart).dropKey?
  some (({ r with keyAllowed := true }.skip 1).emit .blockEntry)

/-- the question mark of a key -/
def key? (r : Reading) : Option Reading := do
  let r ← (← r.blockSign? .blockMappingStart).dropKey?
  some (({ r with keyAllowed := !r.inFlow }.skip 1).emit .key)

/-- the colon of a value: the key before it is now known to be one -/
def value? (r : Reading) : Option Reading := do
  match r.keyStart with
  | some k =>
    let r := (r.emitAt k.number .key).openBlock k.start.column k.number .blockMappingStart
    some (({ r with keyAllowed := false, keyStart := none }.skip 1).emit .value)
  | none =>
    let r ← r.blockSign? .blockMappingStart
    some (({ r with keyAllowed := !r.inFlow }.skip 1).emit .value)

/-- an anchor or an alias -/
def name? (r : Reading) (token : String → Token) : Option Reading := do
  let r ← r.noteKey?
  let (name, rest) ← Property.name? (r.rest.drop 1)
  some ({ r with keyAllowed := false, rest }.emit (token name))

def tag? (r : Reading) : Option Reading := do
  let r ← r.noteKey?
  let (token, rest) ← Property.tag? r.inFlow r.rest
  some ({ r with keyAllowed := false, rest }.emit token)

/-- a block scalar, after which a key may start -/
def block? (r : Reading) (folded : Bool) : Option Reading := do
  let r ← r.dropKey?
  let s ← Scalar.block? folded r.indent (r.rest.drop 1)
  some ({ r with keyAllowed := true, rest := s.rest }.emit (.scalar s.text false))

/-- a scalar in quotes -/
def quoted? (r : Reading) (read : Glyphs → Option Scalar.Read) : Option Reading := do
  let r ← r.noteKey?
  let s ← read (r.rest.drop 1)
  some ({ r with keyAllowed := false, rest := s.rest }.emit (.scalar s.text false))

/-- a plain scalar, after which a key may start on a new line -/
def plain? (r : Reading) : Option Reading := do
  let r ← r.noteKey?
  let s ← Scalar.plain? r.inFlow (r.indent + 1) r.rest
  some ({ r with keyAllowed := s.broken, rest := s.rest }.emit (.scalar s.text true))

/-- a plain scalar may start here -/
def startsPlain (r : Reading) : Bool :=
  let c := next r.rest
  let c' := charAt 1 r.rest
  if c = '-' then !isBlank c'
  else if c = '?' || c = ':' then !r.inFlow && !endsWord c'
  else !endsWord c && !",[]{}#&*!|>'\"%@`".toList.contains c

/-- the token at the next character, which is neither blank nor the end -/
def token? (r : Reading) : Option Reading :=
  let c := next r.rest
  let ends := endsWord (charAt 1 r.rest)
  if c = '%' && column r.rest = 0 then r.directive?
  else if isMarkerOf '-' r.rest then r.marker? .documentStart
  else if isMarkerOf '.' r.rest then r.marker? .documentEnd
  else if c = '[' then r.openFlow? .flowSequenceStart
  else if c = '{' then r.openFlow? .flowMappingStart
  else if c = ']' then r.closeFlow? .flowSequenceEnd
  else if c = '}' then r.closeFlow? .flowMappingEnd
  else if c = ',' then r.flowEntry?
  else if c = '-' && ends then r.blockEntry?
  else if c = '?' && (r.inFlow || ends) then r.key?
  else if c = ':' && (r.inFlow || ends) then r.value?
  else if c = '*' then r.name? .alias
  else if c = '&' then r.name? .anchor
  else if c = '!' then r.tag?
  else if c = '|' && !r.inFlow then r.block? false
  else if c = '>' && !r.inFlow then r.block? true
  else if c = '\'' then r.quoted? Scalar.single?
  else if c = '"' then r.quoted? Scalar.double?
  else if r.startsPlain then r.plain?
  else none

/-- one token further; nothing at the end of the text -/
def step? (r : Reading) : Option (Option Reading) := do
  let r ← r.toToken.refreshKeys?
  if next r.rest = endMark then some none
  else
    let r ← (r.closeBlocks (column r.rest)).token?
    some (some r)

/-- the tokens in order, once the end of the text is reached -/
def finish? (r : Reading) : Option (List Token) := do
  let r ← (r.closeBlocks (-1)).dropKey?
  some r.tokens.reverse

/-- all tokens; every one takes at least one character -/
def run? : Nat → Reading → Option (List Token)
  | 0, _ => none
  | fuel + 1, r =>
    match r.step? with
    | none => none
    | some none => r.toToken.refreshKeys?.bind finish?
    | some (some r') => run? fuel r'

end Reading

/-- the tokens of a text -/
def Token.ofText? (s : String) : Option (List Token) := do
  let glyphs ← Glyph.ofText? s
  Reading.run? (glyphs.length + 1) { rest := glyphs }

end ReleaseUpgrade.Yaml
