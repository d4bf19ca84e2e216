/-! White space in the sense of the Unicode property of that name, and trimming by it. -/

namespace ParseView

/-- The characters with the Unicode property White_Space. -/
def isBlank (character : Char) : Bool :=
  let code := character.toNat
  (0x09 ≤ code && code ≤ 0x0D) || code == 0x20 || code == 0x85 || code == 0xA0 ||
    code == 0x1680 || (0x2000 ≤ code && code ≤ 0x200A) || code == 0x2028 || code == 0x2029 ||
    code == 0x202F || code == 0x205F || code == 0x3000

def trimStart (characters : List Char) : List Char :=
  characters.dropWhile isBlank

def trimEnd (characters : List Char) : List Char :=
  (trimStart characters.reverse).reverse

def trim (characters : List Char) : List Char :=
  trimEnd (trimStart characters)

end ParseView
