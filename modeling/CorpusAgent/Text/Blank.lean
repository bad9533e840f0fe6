/-!
# Blank text

White space is the Unicode property `White_Space`: the ASCII controls from tab to carriage return,
the space, the two Latin-1 separators and the separators of the higher planes.  Zero-width
characters do not belong to it.

* `isBlank` holds of a text that has no other character.
* `trim` removes white space from both ends.
-/

namespace CorpusAgent.Text

/-- The characters of the property `White_Space`. -/
def isSpace (c : Char) : Bool :=
  let n := c.toNat
  (9 ≤ n && n ≤ 13) || n == 0x20 || n == 0x85 || n == 0xA0 || n == 0x1680
    || (0x2000 ≤ n && n ≤ 0x200A) || n == 0x2028 || n == 0x2029 || n == 0x202F
    || n == 0x205F || n == 0x3000

def isBlank (s : String) : Bool := s.toList.all isSpace

/-- The characters between the first and the last one that is not white space. -/
def trimChars (cs : List Char) : List Char :=
  ((cs.dropWhile isSpace).reverse.dropWhile isSpace).reverse

/-- The text without the white space at its ends. -/
def trim (s : String) : String := String.ofList (trimChars s.toList)

@[simp] theorem isBlank_empty : isBlank "" = true := rfl

@[simp] theorem isBlank_append (s t : String) : isBlank (s ++ t) = (isBlank s && isBlank t) := by
  rw [isBlank, String.toList_append, List.all_append]
  rfl

end CorpusAgent.Text
