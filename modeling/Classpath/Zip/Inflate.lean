import Classpath.Zip.Error
import Classpath.Zip.Huffman

/-!
# Inflating deflated data

Deflated data is a sequence of blocks of bits, least significant bit of each
byte first.  A block is stored bytes, or symbols under fixed or given Huffman
codes: a literal byte, the end of the block, or a copy of earlier output.
Bytes after the last block are not looked at.
-/

namespace Classpath
namespace Zip

/-- The next bit to read and the output so far. -/
structure InflateState where
  position : Nat := 0
  output : ByteArray := ByteArray.empty

/-- A computation that reads bits and appends output. -/
abbrev Inflater := EStateM ZipError InflateState

namespace Inflate

/-- The next bit. -/
def bit (data : ByteArray) : Inflater Nat := fun state =>
  let index := state.position / 8
  if h : index < data.size then
    .ok ((data[index].toNat >>> (state.position % 8)) % 2)
      { state with position := state.position + 1 }
  else
    .error .corruptData state

/-- A number of `width` bits, least significant first. -/
def bits (data : ByteArray) : (width : Nat) → Inflater Nat
  | 0 => pure 0
  | width + 1 => do
      let low ← bit data
      let high ← bits data width
      return low + 2 * high

/-- Go on at the next whole byte. -/
def alignByte : Inflater Unit :=
  modify fun state => { state with position := (state.position + 7) / 8 * 8 }

def emit (byte : UInt8) : Inflater Unit :=
  modify fun state => { state with output := state.output.push byte }

/-- Find the codeword that the next bits begin with.  `codeword` holds the bits
read so far, `first` the first codeword of the length under test and `skipped`
the number of shorter codewords. -/
def symbolFrom (data : ByteArray) (symbols : Array Nat) (codeword first skipped : Nat) :
    (counts : List Nat) → Inflater Nat
  | [] => throw .corruptData
  | count :: counts => do
      let codeword := codeword * 2 + (← bit data)
      if codeword < first + count then
        match symbols[skipped + (codeword - first)]? with
        | some symbol => return symbol
        | none => throw .corruptData
      else
        symbolFrom data symbols codeword ((first + count) * 2) (skipped + count) counts

/-- The next symbol under a code. -/
def symbol (data : ByteArray) (code : HuffmanCode) : Inflater Nat :=
  symbolFrom data code.symbols 0 0 0 code.counts

/-- The shortest copy of each length symbol, and how many bits are added. -/
def lengthTable : Array (Nat × Nat) := #[
  (3, 0), (4, 0), (5, 0), (6, 0), (7, 0), (8, 0), (9, 0), (10, 0), (11, 1), (13, 1), (15, 1),
  (17, 1), (19, 2), (23, 2), (27, 2), (31, 2), (35, 3), (43, 3), (51, 3), (59, 3), (67, 4),
  (83, 4), (99, 4), (115, 4), (131, 5), (163, 5), (195, 5), (227, 5), (258, 0)]

/-- The nearest distance of each distance symbol, and how many bits are added. -/
def distanceTable : Array (Nat × Nat) := #[
  (1, 0), (2, 0), (3, 0), (4, 0), (5, 1), (7, 1), (9, 2), (13, 2), (17, 3), (25, 3), (33, 4),
  (49, 4), (65, 5), (97, 5), (129, 6), (193, 6), (257, 7), (385, 7), (513, 8), (769, 8),
  (1025, 9), (1537, 9), (2049, 10), (3073, 10), (4097, 11), (6145, 11), (8193, 12), (12289, 12),
  (16385, 13), (24577, 13)]

/-- The number a symbol of a table stands for. -/
def tableNumber (data : ByteArray) (table : Array (Nat × Nat)) (index : Nat) : Inflater Nat :=
  match table[index]? with
  | some (base, extra) => do
      return base + (← bits data extra)
  | none => throw .corruptData

/-- The byte of the output from a distance back.  In front of the output there are
zeros. -/
def byteBack (output : ByteArray) (distance : Nat) : UInt8 :=
  if h : 0 < distance ∧ distance ≤ output.size then output[output.size - distance] else 0

/-- Repeat `length` bytes of the output from a distance back, which may overlap
what is being written. -/
def copyBack (distance : Nat) : (length : Nat) → Inflater Unit
  | 0 => pure ()
  | length + 1 => do
      emit (byteBack (← get).output distance)
      copyBack distance length

/-- The symbols of a block up to its end.  Every symbol takes a bit, so `fuel`
bits are enough. -/
def symbols (data : ByteArray) (literals distances : HuffmanCode) : (fuel : Nat) → Inflater Unit
  | 0 => throw .corruptData
  | fuel + 1 => do
      let next ← symbol data literals
      if next < 256 then
        emit (UInt8.ofNat next)
        symbols data literals distances fuel
      else if next = 256 then
        return
      else
        let length ← tableNumber data lengthTable (next - 257)
        let distance ← tableNumber data distanceTable (← symbol data distances)
        copyBack distance length
        symbols data literals distances fuel

/-- Bytes that are not compressed. -/
def storedBytes (data : ByteArray) : (count : Nat) → Inflater Unit
  | 0 => pure ()
  | count + 1 => do
      emit (UInt8.ofNat (← bits data 8))
      storedBytes data count

/-- A stored block: a length, its complement, and the bytes. -/
def storedBlock (data : ByteArray) : Inflater Unit := do
  alignByte
  let length ← bits data 16
  let complement ← bits data 16
  if length + complement = 0xFFFF then
    storedBytes data length
  else
    throw .corruptData

/-- The code of literals and lengths of a fixed block. -/
def fixedLiterals : HuffmanCode :=
  .ofLengths (List.replicate 144 8 ++ List.replicate 112 9 ++ List.replicate 24 7 ++
    List.replicate 8 8)

/-- The code of distances of a fixed block. -/
def fixedDistances : HuffmanCode :=
  .ofLengths (List.replicate 32 5)

/-- The order in which the lengths of the code for lengths are given. -/
def lengthOrder : List Nat :=
  [16, 17, 18, 0, 8, 7, 9, 6, 10, 5, 11, 4, 12, 3, 13, 2, 14, 1, 15]

/-- A code, if it is usable. -/
def usableCode (lengths : List Nat) : Inflater HuffmanCode :=
  let code := HuffmanCode.ofLengths lengths
  if code.isUsable then pure code else throw .corruptData

/-- The codeword lengths of a given block, latest first: each is given directly,
or the one before or zero is repeated.  Every step gives a length, so `fuel`
lengths are enough. -/
def codeLengths (data : ByteArray) (code : HuffmanCode) (total : Nat) :
    (fuel : Nat) → (done : List Nat) → Inflater (List Nat)
  | 0, done => if done.length = total then pure done else throw .corruptData
  | fuel + 1, done => do
      if total ≤ done.length then
        if done.length = total then return done else throw .corruptData
      else
        let next ← symbol data code
        if next < 16 then
          codeLengths data code total fuel (next :: done)
        else if next = 16 then
          match done with
          | [] => throw .corruptData
          | last :: _ =>
              let count := 3 + (← bits data 2)
              codeLengths data code total fuel (List.replicate count last ++ done)
        else if next = 17 then
          let count := 3 + (← bits data 3)
          codeLengths data code total fuel (List.replicate count 0 ++ done)
        else
          let count := 11 + (← bits data 7)
          codeLengths data code total fuel (List.replicate count 0 ++ done)

/-- Three bits for each of the first `count` lengths of the code for lengths. -/
def orderedLengths (data : ByteArray) : (count : Nat) → Inflater (List Nat)
  | 0 => pure []
  | count + 1 => do
      let first ← bits data 3
      return first :: (← orderedLengths data count)

/-- The codes of a given block. -/
def givenCodes (data : ByteArray) : Inflater (HuffmanCode × HuffmanCode) := do
  let literalCount := 257 + (← bits data 5)
  let distanceCount := 1 + (← bits data 5)
  let lengthCount := 4 + (← bits data 4)
  if 286 < literalCount || 30 < distanceCount then
    throw .corruptData
  let given ← orderedLengths data lengthCount
  let ordered := lengthOrder.zip given
  let lengthCode ← usableCode ((List.range 19).map fun symbol => (ordered.lookup symbol).getD 0)
  let total := literalCount + distanceCount
  let lengths := (← codeLengths data lengthCode total total []).reverse
  let literals ← usableCode (lengths.take literalCount)
  let distances ← usableCode (lengths.drop literalCount)
  return (literals, distances)

/-- One block.  True if it is the last one. -/
def block (data : ByteArray) : Inflater Bool := do
  let last ← bit data
  let kind ← bits data 2
  if kind = 0 then
    storedBlock data
  else if kind = 1 then
    symbols data fixedLiterals fixedDistances (8 * data.size + 1)
  else if kind = 2 then
    let (literals, distances) ← givenCodes data
    symbols data literals distances (8 * data.size + 1)
  else
    throw .corruptData
  return last = 1

/-- The blocks up to the last one.  Every block takes bits, so `fuel` bits are
enough. -/
def blocks (data : ByteArray) : (fuel : Nat) → Inflater Unit
  | 0 => throw .corruptData
  | fuel + 1 => do
      if ← block data then
        return
      else
        blocks data fuel

end Inflate

/-- The inflated form of deflated data. -/
def inflate (data : ByteArray) : Except ZipError ByteArray :=
  match Inflate.blocks data (8 * data.size + 1) {} with
  | .ok _ state => .ok state.output
  | .error error _ => .error error

end Zip
end Classpath
