import ReleaseUpgrade.Gzip.Bits

/-!
# Prefix codes

`Huffman` is a canonical prefix code, given by the length of the code word of each symbol: shorter
words come first, and words of one length are numbered in the order of their symbols.
-/

namespace ReleaseUpgrade

/-- a canonical prefix code with words of at most 15 bits -/
structure Huffman where
  /-- how many words there are of each length, from one bit on -/
  counts : List Nat
  /-- the symbols by length of their words and then by number -/
  symbols : Array Nat

namespace Huffman

/-- the code of some word lengths; length zero means that the symbol has no word -/
def ofLengths (lengths : List Nat) : Huffman where
  counts := (List.range 15).map fun l => lengths.countP (· = l + 1)
  symbols := ((List.range 15).flatMap fun l =>
    (lengths.zipIdx.filter fun e => e.1 = l + 1).map Prod.snd).toArray

/-- how much of all words of 15 bits the words cover, as a number of such words -/
def coverage (h : Huffman) : Nat :=
  h.counts.foldl (fun total n => total * 2 + n) 0

/-- every stream of bits starts with exactly one word -/
def isComplete (h : Huffman) : Bool := h.coverage = Nat.pow 2 15

/-- the code is complete, or has one symbol at most -/
def isUsable (h : Huffman) : Bool := h.isComplete || h.symbols.size ≤ 1

/-- looks for the word that the stream starts with among the words of the lengths that are left:
`code` is what has been read, `first` the first word of this length, `index` its symbol's place -/
def find? (symbols : Array Nat) : List Nat → Nat → Nat → Nat → Bits → Option (Nat × Bits)
  | [], _, _, _, _ => none
  | count :: rest, code, first, index, b => do
    let (bit, b) ← b.bit?
    let code := code + bit
    if first ≤ code && code < first + count then
      (symbols[index + (code - first)]?).map (·, b)
    else
      find? symbols rest (code * 2) ((first + count) * 2) (index + count) b

/-- the symbol whose word the stream starts with -/
def symbol? (h : Huffman) (b : Bits) : Option (Nat × Bits) := find? h.symbols h.counts 0 0 0 b

end Huffman

end ReleaseUpgrade
