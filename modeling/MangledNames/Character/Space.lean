set_option autoImplicit false

/-!
White space.
-/

namespace MangledNames.Character

def isSpace (c : Char) : Bool :=
  let n := c.toNat
  (0x9 ≤ n && n ≤ 0xD) || n == 0x20 || n == 0x85 || n == 0xA0 || n == 0x1680
    || (0x2000 ≤ n && n ≤ 0x200A) || n == 0x2028 || n == 0x2029 || n == 0x202F || n == 0x205F
    || n == 0x3000

/-- White space and the four separators of records among the controls. -/
def isBlank (c : Char) : Bool := isSpace c || (0x1C ≤ c.toNat && c.toNat ≤ 0x1F)

def trim (ofClass : Char → Bool) (text : List Char) : List Char :=
  ((text.dropWhile ofClass).reverse.dropWhile ofClass).reverse

end MangledNames.Character
