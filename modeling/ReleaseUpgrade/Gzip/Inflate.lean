import ReleaseUpgrade.Gzip.Huffman

/-!
# Decompression

`Inflate.inflate?` undoes the compression method "deflate": blocks that are stored as they are, or
written in prefix codes for literals, lengths and distances.
-/

namespace ReleaseUpgrade.Inflate

/-- base and extra bits of the lengths that the symbols from 257 on stand for -/
def lengths : Array (Nat × Nat) :=
  #[(3, 0), (4, 0), (5, 0), (6, 0), (7, 0), (8, 0), (9, 0), (10, 0), (11, 1), (13, 1), (15, 1),
    (17, 1), (19, 2), (23, 2), (27, 2), (31, 2), (35, 3), (43, 3), (51, 3), (59, 3), (67, 4),
    (83, 4), (99, 4), (115, 4), (131, 5), (163, 5), (195, 5), (227, 5), (258, 0)]

/-- base and extra bits of the distances -/
def distances : Array (Nat × Nat) :=
  #[(1, 0), (2, 0), (3, 0), (4, 0), (5, 1), (7, 1), (9, 2), (13, 2), (17, 3), (25, 3), (33, 4),
    (49, 4), (65, 5), (97, 5), (129, 6), (193, 6), (257, 7), (385, 7), (513, 8), (769, 8),
    (1025, 9), (1537, 9), (2049, 10), (3073, 10), (4097, 11), (6145, 11), (8193, 12), (12289, 12),
    (16385, 13), (24577, 13)]

/-- the order in which the lengths of the code for word lengths are given -/
def lengthOrder : List Nat := [16, 17, 18, 0, 8, 7, 9, 6, 10, 5, 11, 4, 12, 3, 13, 2, 14, 1, 15]

/-- a base with extra bits -/
def extended? (table : Array (Nat × Nat)) (symbol : Nat) (b : Bits) : Option (Nat × Bits) := do
  let (base, extra) ← table[symbol]?
  let (n, b) ← b.number? extra
  some (base + n, b)

/-- `out` with `n` bytes repeated from `distance` bytes back -/
def repeatBack (distance : Nat) : Nat → ByteArray → ByteArray
  | 0, out => out
  | n + 1, out => repeatBack distance n (out.push (out[out.size - distance]?.getD 0))

/-- a block in prefix codes, up to its end; every step takes at least one bit -/
def codedBlock? (literals distanceCode : Huffman) :
    Nat → ByteArray → Bits → Option (ByteArray × Bits)
  | 0, _, _ => none
  | fuel + 1, out, b => do
    let (symbol, b) ← literals.symbol? b
    if symbol < 256 then codedBlock? literals distanceCode fuel (out.push (UInt8.ofNat symbol)) b
    else if symbol = 256 then some (out, b)
    else do
      let (length, b) ← extended? lengths (symbol - 257) b
      let (d, b) ← distanceCode.symbol? b
      let (distance, b) ← extended? distances d b
      if distance ≤ out.size then
        codedBlock? literals distanceCode fuel (repeatBack distance length out) b
      else none

/-- a block that is stored as it is -/
def storedBlock? (out : ByteArray) (b : Bits) : Option (ByteArray × Bits) := do
  let (n, b) ← b.align.number? 16
  let (check, b) ← b.number? 16
  if n + check = 65535 then b.take? n out else none

/-- the codes that are the same in every stream -/
def fixedCodes : Huffman × Huffman :=
  (.ofLengths (List.replicate 144 8 ++ List.replicate 112 9 ++ List.replicate 24 7 ++
    List.replicate 8 8), .ofLengths (List.replicate 30 5))

/-- `n` word lengths behind those that are there, in reverse; a length can be repeated -/
def wordLengths? (code : Huffman) : Nat → Nat → List Nat → Bits → Option (List Nat × Bits)
  | _, 0, done, b => some (done.reverse, b)
  | 0, _ + 1, _, _ => none
  | fuel + 1, n + 1, done, b => do
    let (symbol, b) ← code.symbol? b
    if symbol < 16 then wordLengths? code fuel n (symbol :: done) b
    else do
      let (length, base, extra) ←
        if symbol = 16 then done.head?.map fun l => (l, 3, 2)
        else if symbol = 17 then some (0, 3, 3)
        else some (0, 11, 7)
      let (more, b) ← b.number? extra
      if base + more ≤ n + 1 then
        wordLengths? code fuel (n + 1 - (base + more)) (List.replicate (base + more) length ++ done)
          b
      else none

/-- the lengths of the words for word lengths, in the order in which they are given -/
def rawLengths? : Nat → Bits → Option (List Nat × Bits)
  | 0, b => some ([], b)
  | n + 1, b => do
    let (l, b) ← b.number? 3
    let (rest, b) ← rawLengths? n b
    some (l :: rest, b)

/-- the codes that a block brings with it -/
def dynamicCodes? (b : Bits) : Option ((Huffman × Huffman) × Bits) := do
  let (literals, b) ← b.number? 5
  let (distances, b) ← b.number? 5
  let (lengths, b) ← b.number? 4
  let (given, b) ← rawLengths? (lengths + 4) b
  let placed := lengthOrder.zip given
  let code := Huffman.ofLengths ((List.range 19).map fun s => (placed.lookup s).getD 0)
  let total := literals + 257 + (distances + 1)
  let (words, b) ← if code.isComplete then wordLengths? code total total [] b else none
  let literalCode := Huffman.ofLengths (words.take (literals + 257))
  let distanceCode := Huffman.ofLengths (words.drop (literals + 257))
  if literals ≤ 29 && distances ≤ 29 && literalCode.isUsable && distanceCode.isUsable then
    some ((literalCode, distanceCode), b)
  else none

/-- blocks up to the last one -/
def blocks? : Nat → ByteArray → Bits → Option (ByteArray × Bits)
  | 0, _, _ => none
  | fuel + 1, out, b => do
    let (last, b) ← b.bit?
    let (kind, b) ← b.number? 2
    let (out, b) ←
      if kind = 0 then storedBlock? out b
      else if kind = 1 then codedBlock? fixedCodes.1 fixedCodes.2 b.remaining out b
      else if kind = 2 then do
        let (codes, b) ← dynamicCodes? b
        codedBlock? codes.1 codes.2 b.remaining out b
      else none
    if last = 1 then some (out, b) else blocks? fuel out b

/-- the bytes that a stream was compressed from, and the stream after it -/
def inflate? (b : Bits) : Option (ByteArray × Bits) := blocks? b.remaining ByteArray.empty b

end ReleaseUpgrade.Inflate
