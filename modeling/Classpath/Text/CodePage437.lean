/-!
# Code page 437

The character set of entry names in archives that do not declare UTF-8.
-/

namespace Classpath
namespace Text

/-- The characters of the bytes from 128 on. -/
def codePage437Upper : String :=
  "ÇüéâäàåçêëèïîìÄÅÉæÆôöòûùÿÖÜ¢£¥₧ƒ" ++
  "áíóúñÑªº¿⌐¬½¼¡«»░▒▓│┤╡╢╖╕╣║╗╝╜╛┐" ++
  "└┴┬├─┼╞╟╚╔╩╦╠═╬╧╨╤╥╙╘╒╓╫╪┘┌█▄▌▐▀" ++
  "αßΓπΣσµτΦΘΩδ∞φε∩≡±≥≤⌠⌡÷≈°∙·√ⁿ²■\u00a0"

/-- The character of a byte.  Bytes below 128 are ASCII. -/
def codePage437Char (byte : UInt8) : Char :=
  if byte < 0x80 then Char.ofNat byte.toNat
  else codePage437Upper.toList.getD (byte.toNat - 128) ' '

/-- The characters of a byte string. -/
def ofCodePage437 (bytes : List UInt8) : List Char :=
  bytes.map codePage437Char

end Text
end Classpath
