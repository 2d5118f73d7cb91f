/-!
Two classes of characters that the written forms treat specially.

Owns:
- `isBlank`, the characters with the property White_Space of the Unicode standard;
- `isControl`, the control characters: the first 32, delete, and the 32 after it.
-/

namespace Facet.Text

/-- White space, in the whole of Unicode. -/
def isBlank (char : Char) : Bool :=
  let code := char.toNat
  (0x09 ≤ code && code ≤ 0x0D) || code == 0x20 || code == 0x85 || code == 0xA0 ||
    code == 0x1680 || (0x2000 ≤ code && code ≤ 0x200A) || code == 0x2028 || code == 0x2029 ||
    code == 0x202F || code == 0x205F || code == 0x3000

/-- Control characters. -/
def isControl (char : Char) : Bool :=
  let code := char.toNat
  code < 0x20 || (0x7F ≤ code && code ≤ 0x9F)

end Facet.Text
