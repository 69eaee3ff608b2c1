import ReleaseUpgrade.Text.Digits
import ReleaseUpgrade.Yaml.Glyph

/-!
# Scalars in YAML text

The four ways to write a text.  Where a text goes on over several lines, a single line break is a
space and of several the first one is dropped; `Gap` is what stands between two words.

* `Scalar.plain?`    without quotes;
* `Scalar.single?`   between apostrophes, of which one inside is doubled;
* `Scalar.double?`   between quotation marks, with escapes;
* `Scalar.block?`    as indented lines, kept as they are or folded.
-/

namespace ReleaseUpgrade.Yaml

/-- blanks and line breaks between two words of a scalar -/
structure Gap where
  /-- the blanks, if no line ends here; last one first -/
  blanks : List Char := []
  /-- a line ends here -/
  broken : Bool := false
  /-- the first line break, unless it is escaped -/
  lead : Option Char := none
  /-- the further line breaks, last one first -/
  further : List Char := []

namespace Gap

def isEmpty (gap : Gap) : Bool := gap.blanks.isEmpty && !gap.broken

/-- a blank or a line break more -/
def add (gap : Gap) (c : Char) : Gap :=
  if isBlank c then
    if gap.broken then gap else { gap with blanks := c :: gap.blanks }
  else if gap.broken then { gap with further := c :: gap.further }
  else { broken := true, lead := some c }

/-- what the gap stands for, last character first -/
def reversed (gap : Gap) : List Char :=
  if gap.broken then
    match gap.lead with
    | none => gap.further
    | some '\n' => if gap.further.isEmpty then [' '] else gap.further
    | some c => gap.further ++ [c]
  else gap.blanks

end Gap

namespace Scalar

/-- a text and what follows it -/
structure Read where
  text : String
  rest : Glyphs
  /-- a line has ended after the text, and blanks and breaks after it are taken away -/
  broken : Bool := false

/-- the text of characters in reverse -/
def ofReversed (cs : List Char) : String := String.ofList cs.reverse

/-! ## plain scalars -/

/-- the marks of a flow collection -/
def isFlowMark (c : Char) : Bool := c = ',' || c = '[' || c = ']' || c = '{' || c = '}'

/-- a colon that ends a plain scalar, or a mark that does so in a flow collection -/
def endsPlain (flow : Bool) (gs : Glyphs) : Bool :=
  (next gs = ':' && endsWord (charAt 1 gs)) || (flow && isFlowMark (next gs))

/-- in a flow collection a colon must not stand directly before a mark -/
def isBadColon (flow : Bool) (gs : Glyphs) : Bool :=
  flow && next gs = ':' && (isFlowMark (charAt 1 gs) || charAt 1 gs = '?')

/-- a plain scalar, from the text in reverse and the gap behind it on; further lines have at least
`indent` columns -/
def plainFrom? (flow : Bool) (indent : Int) : List Char → Gap → Glyphs → Option Read
  | text, gap, [] => some ⟨ofReversed text, [], gap.broken⟩
  | text, gap, g :: rest =>
    let stop : Option Read := some ⟨ofReversed text, g :: rest, gap.broken⟩
    if isBlank g.char || isBreak g.char then
      if gap.broken && g.column < indent && g.char = '\t' then none
      else plainFrom? flow indent text (gap.add g.char) rest
    else if g.char = endMark then stop
    else if !gap.isEmpty &&
        (isMarker (g :: rest) || g.char = '#' || (!flow && g.column < indent)) then stop
    else if isBadColon flow (g :: rest) then none
    else if endsPlain flow (g :: rest) then stop
    else plainFrom? flow indent (g.char :: (gap.reversed ++ text)) {} rest

/-- a plain scalar -/
def plain? (flow : Bool) (indent : Int) (gs : Glyphs) : Option Read :=
  plainFrom? flow indent [] {} gs

/-! ## quoted scalars -/

/-- the rest of a scalar between apostrophes -/
def singleFrom? : List Char → Gap → Glyphs → Option Read
  | _, _, [] => none
  | text, gap, g :: rest =>
    if isMarker (g :: rest) || g.char = endMark then none
    else if isBlank g.char || isBreak g.char then singleFrom? text (gap.add g.char) rest
    else if g.char = '\'' then
      match rest with
      | g' :: rest' =>
        if g'.char = '\'' then singleFrom? ('\'' :: (gap.reversed ++ text)) {} rest'
        else some { text := ofReversed (gap.reversed ++ text), rest := g' :: rest' }
      | [] => some { text := ofReversed (gap.reversed ++ text), rest := [] }
    else singleFrom? (g.char :: (gap.reversed ++ text)) {} rest

/-- a scalar after its first apostrophe -/
def single? (gs : Glyphs) : Option Read := singleFrom? [] {} gs

/-- the character that a one-letter escape stands for -/
def simpleEscape? (c : Char) : Option Char :=
  match c with
  | '0' => some '\x00'
  | 'a' => some '\x07'
  | 'b' => some '\x08'
  | 't' => some '\t'
  | '\t' => some '\t'
  | 'n' => some '\n'
  | 'v' => some '\x0B'
  | 'f' => some '\x0C'
  | 'r' => some '\r'
  | 'e' => some '\x1B'
  | ' ' => some ' '
  | '"' => some '"'
  | '/' => some '/'
  | '\\' => some '\\'
  | 'N' => some '\x85'
  | '_' => some '\xA0'
  | 'L' => some '\u2028'
  | 'P' => some '\u2029'
  | _ => none

/-- how many hexadecimal digits follow a letter in an escape -/
def escapeWidth? (c : Char) : Option Nat :=
  match c with
  | 'x' => some 2
  | 'u' => some 4
  | 'U' => some 8
  | _ => none

/-- the character of a code point -/
def charOf? (n : Nat) : Option Char := if h : n.isValidChar then some (Char.ofNatAux n h) else none

/-- the character of the escape after a backslash, and how many characters the escape has -/
def escape? (gs : Glyphs) : Option (Char × Nat) :=
  match simpleEscape? (next gs) with
  | some c => some (c, 1)
  | none => do
    let width ← escapeWidth? (next gs)
    let digits := chars ((gs.drop 1).take width)
    if digits.length = width then
      let c ← charOf? (← Text.number? 16 digits)
      some (c, width + 1)
    else none

/-- the rest of a scalar between quotation marks, after `skip` further characters -/
def doubleFrom? : Nat → List Char → Gap → Glyphs → Option Read
  | _, _, _, [] => none
  | skip + 1, text, gap, _ :: rest => doubleFrom? skip text gap rest
  | 0, text, gap, g :: rest =>
    if isMarker (g :: rest) || g.char = endMark then none
    else if isBlank g.char || isBreak g.char then doubleFrom? 0 text (gap.add g.char) rest
    else if g.char = '"' then some { text := ofReversed (gap.reversed ++ text), rest }
    else if g.char = '\\' then
      if isBreak (next rest) then doubleFrom? 1 (gap.reversed ++ text) { broken := true } rest
      else
        match escape? rest with
        | some (c, n) => doubleFrom? n (c :: (gap.reversed ++ text)) {} rest
        | none => none
    else doubleFrom? 0 (g.char :: (gap.reversed ++ text)) {} rest

/-- a scalar after its first quotation mark -/
def double? (gs : Glyphs) : Option Read := doubleFrom? 0 [] {} gs

/-! ## block scalars -/

/-- what becomes of the line breaks at the end of a block scalar -/
inductive Chomp where
  /-- all of them go -/
  | strip
  /-- one of them stays -/
  | clip
  /-- all of them stay -/
  | keep
  deriving DecidableEq, Repr

def chomp? (c : Char) : Option Chomp :=
  match c with
  | '+' => some .keep
  | '-' => some .strip
  | _ => none

/-- the digit that states the indentation, from one on; nothing stands for zero here -/
def indentDigit? (gs : Glyphs) : Option (Nat × Glyphs) :=
  if (next gs).isDigit then
    if next gs = '0' then none else some ((next gs).toNat - 48, gs.drop 1)
  else some (0, gs)

/-- the signs after the first one: what to do with the line breaks at the end, the indentation that
is stated (zero if it is not), and what follows -/
def blockHeader? (gs : Glyphs) : Option (Chomp × Nat × Glyphs) := do
  match chomp? (next gs) with
  | some c =>
    let (digit, rest) ← indentDigit? (gs.drop 1)
    some (c, digit, rest)
  | none =>
    let (digit, rest) ← indentDigit? gs
    if digit = 0 then some (.clip, 0, rest)
    else
      match chomp? (next rest) with
      | some c => some (c, digit, rest.drop 1)
      | none => some (.clip, digit, rest)

/-- the empty lines in front: their line breaks in reverse, the most columns that were seen, and
what follows; zero as `indent` stands for any indentation -/
def emptyLines? (indent : Nat) : Nat → List Char → Glyphs → Option (List Char × Nat × Glyphs)
  | most, breaks, [] => some (breaks, most, [])
  | most, breaks, g :: rest =>
    if g.char = ' ' && (indent = 0 || g.column < indent) then emptyLines? indent most breaks rest
    else
      let most := max most g.column
      if g.char = '\t' && (indent = 0 || g.column < indent) then none
      else if isBreak g.char then emptyLines? indent most (g.char :: breaks) rest
      else some (breaks, most, g :: rest)

/-- a block scalar that is read up to the start of a line -/
structure Block where
  /-- the text, last character first -/
  text : List Char := []
  /-- the line break after the last line -/
  lead : List Char := []
  /-- the line breaks of the empty lines after it, last one first -/
  further : List Char := []
  /-- the last line starts with a blank -/
  indented : Bool := false

/-- the text before the next line; `folded` if single breaks between lines that start with words
are spaces -/
def Block.joined (b : Block) (folded blank : Bool) : List Char :=
  if folded && b.lead = ['\n'] && !b.indented && !blank then
    if b.further.isEmpty then ' ' :: b.text else b.further ++ b.text
  else b.further ++ (b.lead ++ b.text)

/-- the lines with `indent` columns -/
def blockLines? (folded : Bool) (indent : Nat) : Nat → Block → Glyphs → Option (Block × Glyphs)
  | 0, _, _ => none
  | fuel + 1, b, gs =>
    if column gs = indent && next gs != endMark then
      let blank := isBlank (next gs)
      let line := chars (gs.takeWhile fun g => !endsLine g.char)
      let after := gs.dropWhile fun g => !endsLine g.char
      let text := line.reverse ++ b.joined folded blank
      let (lead, after) :=
        if isBreak (next after) then ([next after], after.drop 1) else ([], after)
      match emptyLines? indent 0 [] after with
      | some (further, _, after) =>
        blockLines? folded indent fuel ⟨text, lead, further, blank⟩ after
      | none => none
    else some (b, gs)

/-- the text with its end treated as stated -/
def Block.chomped (b : Block) (chomp : Chomp) : List Char :=
  match chomp with
  | .strip => b.text
  | .clip => b.lead ++ b.text
  | .keep => b.further ++ (b.lead ++ b.text)

/-- a block scalar after its first sign, inside a block with `outer` columns -/
def block? (folded : Bool) (outer : Int) (gs : Glyphs) : Option Read := do
  let (chomp, digit, gs) ← blockHeader? gs
  let gs ← finishLine? gs
  let stated := if digit = 0 then 0 else digit + outer.toNat
  let (further, most, gs) ← emptyLines? stated 0 [] gs
  let indent := if digit = 0 then max most (max (outer + 1).toNat 1) else stated
  let (b, gs) ← blockLines? folded indent (gs.length + 1) { further } gs
  some { text := ofReversed (b.chomped chomp), rest := gs }

end Scalar

end ReleaseUpgrade.Yaml
