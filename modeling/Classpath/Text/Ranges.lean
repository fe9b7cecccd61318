/-!
# Classes of characters

A class of characters is given by its ranges of code points.
-/

namespace Classpath
namespace Text

/-- Is the character in one of the ranges?  The ends of a range belong to it. -/
def inRanges (ranges : List (Nat × Nat)) (c : Char) : Bool :=
  ranges.any fun (first, last) => first ≤ c.toNat && c.toNat ≤ last

end Text
end Classpath
