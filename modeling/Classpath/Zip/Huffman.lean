/-!
# Canonical Huffman codes

A code is given by the length of each symbol's codeword.  Codewords of one
length are consecutive numbers in the order of their symbols, and follow the
codewords of the lengths below.
-/

namespace Classpath
namespace Zip

/-- The longest codeword. -/
def maxCodeLength : Nat := 15

/-- A code: how many codewords there are of each length from one on, and the
symbols in the order of their codewords. -/
structure HuffmanCode where
  counts : List Nat
  symbols : Array Nat
deriving Repr

namespace HuffmanCode

/-- The code of a list of codeword lengths, one for each symbol.  Length zero
means that the symbol has no codeword. -/
def ofLengths (lengths : List Nat) : HuffmanCode :=
  let widths := (List.range maxCodeLength).map (· + 1)
  let numbered := lengths.zipIdx
  { counts := widths.map fun width => lengths.count width
    symbols := (widths.flatMap fun width =>
      (numbered.filter (·.1 == width)).map (·.2)).toArray }

/-- The number of symbols with a codeword. -/
def used (code : HuffmanCode) : Nat := code.symbols.size

/-- The number of strings of sixteen bits that begin with a codeword. -/
def coverage (code : HuffmanCode) : Nat :=
  code.counts.foldl (fun total count => (total + count) * 2) 0

/-- A code is usable if every long enough bit string begins with exactly one
codeword, if it has no codeword, or if its only codeword is one bit long. -/
def isUsable (code : HuffmanCode) : Bool :=
  code.coverage = 65536 || code.used = 0 || (code.used = 1 && code.counts.head? = some 1)

end HuffmanCode
end Zip
end Classpath
