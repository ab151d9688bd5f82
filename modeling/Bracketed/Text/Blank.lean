namespace Bracketed.Text

/-- The characters with the Unicode property White_Space. Trimming removes these and no others, so a
zero width space or a byte order mark belongs to the text it stands in. -/
def isBlank (c : Char) : Bool :=
  let n := c.toNat
  (9 ≤ n && n ≤ 13) || n == 0x20 || n == 0x85 || n == 0xA0 || n == 0x1680 ||
    (0x2000 ≤ n && n ≤ 0x200A) || n == 0x2028 || n == 0x2029 || n == 0x202F || n == 0x205F || n == 0x3000

/-- The text without the blanks at its left end. -/
def trimLeft (cs : List Char) : List Char :=
  cs.dropWhile isBlank

/-- The text without the blanks at its right end. -/
def trimRight : List Char → List Char
  | [] => []
  | c :: cs =>
    match trimRight cs with
    | [] => if isBlank c then [] else [c]
    | rest => c :: rest

/-- The text without the blanks at its ends; those between other characters stay. -/
def trim (cs : List Char) : List Char :=
  trimRight (trimLeft cs)

/-- How many blanks stand at the left end. -/
def leadingBlanks (cs : List Char) : Nat :=
  (cs.takeWhile isBlank).length

end Bracketed.Text
