/-!
# Hexadecimal numerals
-/

namespace Classpath
namespace Text

/-- The numeral of `n` in base sixteen, lower case, filled with zeros on the
left to at least `width` digits. -/
def hex (width n : Nat) : String :=
  let digits := Nat.toDigits 16 n
  String.ofList (List.replicate (width - digits.length) '0' ++ digits)

end Text
end Classpath
