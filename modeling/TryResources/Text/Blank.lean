/-!
# Blanks

White space in the sense of the character database, and what depends on it: cutting blanks off at
both ends of a text (`trim`) and splitting a text at blanks (`words`).
-/

namespace TryResources.Text

/-- The 25 characters of white space. -/
def isBlank (c : Char) : Bool :=
  let n := c.toNat
  (9 ≤ n && n ≤ 13) || n == 0x20 || n == 0x85 || n == 0xa0 || n == 0x1680 ||
    (0x2000 ≤ n && n ≤ 0x200a) || n == 0x2028 || n == 0x2029 || n == 0x202f || n == 0x205f ||
    n == 0x3000

/-! ## Trimming -/

/-- Cuts blanks off at the end. -/
def trimEnd (cs : List Char) : List Char :=
  (cs.reverse.dropWhile isBlank).reverse

/-- Cuts blanks off at both ends. -/
def trim (cs : List Char) : List Char :=
  trimEnd (cs.dropWhile isBlank)

/-! ## Words -/

/-- Puts a word in front of others, unless it is empty. -/
def consWord (word : List Char) (words : List (List Char)) : List (List Char) :=
  if word.isEmpty then words else word :: words

/-- The characters up to the first blank, and the words after it. -/
def splitWord : List Char → List Char × List (List Char)
  | [] => ([], [])
  | c :: cs =>
    if isBlank c then ([], consWord (splitWord cs).1 (splitWord cs).2)
    else (c :: (splitWord cs).1, (splitWord cs).2)

/-- The runs of characters between blanks. -/
def words (cs : List Char) : List (List Char) :=
  consWord (splitWord cs).1 (splitWord cs).2

end TryResources.Text
