/-!
# Character classes

Two properties of the Unicode standard that chat depends on: which characters are blank, and
which are control characters.

* `isBlank`: the property White_Space.
* `isControl`: the category Cc.
* `trimBlank`: a text without the blanks at its ends.
-/

namespace VoxelServer.Text

def isBlank (c : Char) : Bool :=
  let n := c.toNat
  9 ≤ n && n ≤ 13 || n == 0x20 || n == 0x85 || n == 0xA0 || n == 0x1680 ||
    0x2000 ≤ n && n ≤ 0x200A || n == 0x2028 || n == 0x2029 || n == 0x202F || n == 0x205F ||
    n == 0x3000

def isControl (c : Char) : Bool :=
  let n := c.toNat
  n < 0x20 || 0x7F ≤ n && n < 0xA0

def trimBlank (text : String) : String :=
  let front := text.toList.dropWhile isBlank
  String.ofList (front.reverse.dropWhile isBlank).reverse

end VoxelServer.Text
