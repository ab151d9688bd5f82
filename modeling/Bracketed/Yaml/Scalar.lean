import Bracketed.Yaml.Resolution

namespace Bracketed.Yaml

/-- How the text of a scalar is set off from what stands around it. -/
inductive ScalarStyle where
  | plain
  | singleQuoted
  | doubleQuoted
  /-- The lines of the text follow indented, after a bar. -/
  | literal
  deriving DecidableEq

/-- The characters that end a line. -/
def isBreak (c : Char) : Bool :=
  c == '\n' || c == '\r' || c == '\x85' || c == '\u2028' || c == '\u2029'

/-- The characters that separate tokens. -/
def isBlank (c : Char) : Bool :=
  c == ' ' || c == '\t' || isBreak c

/-- The characters that may stand unescaped. -/
def isPrintable (c : Char) : Bool :=
  let n := c.toNat
  n == 0x0A || (0x20 ≤ n && n ≤ 0x7E) || (0xA0 ≤ n && n ≤ 0xFFFD && n != 0xFEFF) || 0x10000 ≤ n

/-- Whether a separator or the end of the text comes next. -/
def beginsBlank : List Char → Bool
  | [] => true
  | c :: _ => isBlank c

/-- Whether the text begins like an indicator of the format. -/
def beginsWithIndicator : List Char → Bool
  | [] => false
  | c :: rest =>
    "#,[]\x7b\x7d&*!|>'\"%@`".toList.contains c || ((c == '-' || c == '?' || c == ':') && beginsBlank rest) ||
      "---".toList.isPrefixOf (c :: rest) || "...".toList.isPrefixOf (c :: rest)

/-- Whether the text holds a colon that would end a key, or a number sign that would begin a comment. -/
def holdsIndicator : List Char → Bool
  | [] => false
  | c :: rest =>
    (c == ':' && beginsBlank rest) ||
      (match rest with
        | '#' :: _ => isBlank c
        | _ => false) ||
      holdsIndicator rest

/-- Whether two characters with these properties stand next to each other somewhere. -/
def holdsPair (p q : Char → Bool) : List Char → Bool
  | c :: d :: rest => (p c && q d) || holdsPair p q (d :: rest)
  | _ => false

def isSpace (c : Char) : Bool := c == ' '

/-- Whether the text may be written without quotes: it neither begins nor ends with a space, and nothing
in it would be taken for an indicator or the end of a line. -/
def plainAllowed (cs : List Char) : Bool :=
  !(cs.head?.any isSpace || cs.getLast?.any isSpace || beginsWithIndicator cs || holdsIndicator cs ||
    cs.any isBreak || cs.any fun c => !isPrintable c)

/-- Whether the text may be written in single quotes: spaces beside a line break would be lost in them. -/
def singleQuotedAllowed (cs : List Char) : Bool :=
  !(holdsPair isSpace isBreak cs || holdsPair isBreak isSpace cs || cs.any fun c => !isPrintable c)

/-- Whether the text may be written as lines after a bar: spaces at the end of a line would be lost. -/
def literalAllowed (cs : List Char) : Bool :=
  !(cs.getLast?.any isSpace || holdsPair isSpace isBreak cs || cs.any fun c => !isPrintable c)

/-- The style of a text. Only texts of several lines are written as lines; texts that would be read as
something else are quoted. -/
def styleOf (cs : List Char) : ScalarStyle :=
  if cs.contains '\n' then
    if literalAllowed cs then .literal else .doubleQuoted
  else if !isAmbiguous cs && plainAllowed cs then .plain
  else if singleQuotedAllowed cs then .singleQuoted
  else .doubleQuoted

/-- The upper-case hexadecimal digits of a number, filled up with zeros to a width. -/
def hexDigits (width n : Nat) : List Char :=
  let digits := (Nat.toDigits 16 n).map Char.toUpper
  List.replicate (width - digits.length) '0' ++ digits

/-- A character in double quotes. -/
def escapeChar (c : Char) : List Char :=
  match c with
  | '\x00' => ['\\', '0']
  | '\x07' => ['\\', 'a']
  | '\x08' => ['\\', 'b']
  | '\t' => ['\\', 't']
  | '\n' => ['\\', 'n']
  | '\x0b' => ['\\', 'v']
  | '\x0c' => ['\\', 'f']
  | '\r' => ['\\', 'r']
  | '\x1b' => ['\\', 'e']
  | '"' => ['\\', '"']
  | '\\' => ['\\', '\\']
  | '\x85' => ['\\', 'N']
  | '\u2028' => ['\\', 'L']
  | '\u2029' => ['\\', 'P']
  | c =>
    if isPrintable c then [c]
    else if c.toNat ≤ 0xFF then '\\' :: 'x' :: hexDigits 2 c.toNat
    else if c.toNat ≤ 0xFFFF then '\\' :: 'u' :: hexDigits 4 c.toNat
    else '\\' :: 'U' :: hexDigits 8 c.toNat

/-- A character in single quotes. -/
def doubleQuote (c : Char) : List Char :=
  if c = '\'' then ['\'', '\''] else [c]

/-- The text with every line indented that does not begin with the next line break. The first line is
one of them only if the text follows a line break. -/
def indentLines (indent : Nat) (afterBreak : Bool) : List Char → List Char
  | [] => []
  | c :: cs =>
    if isBreak c then c :: indentLines indent true cs
    else if afterBreak then List.replicate indent ' ' ++ c :: indentLines indent false cs
    else c :: indentLines indent false cs

/-- What stands behind the bar: the depth of the indentation if the text itself begins with a blank, and
a sign for the number of line breaks at its end, unless there is one line break after other text. -/
def literalHeader (cs : List Char) : List Char :=
  let depth := if cs.head?.any fun c => c == ' ' || isBreak c then ['2'] else []
  let ending := match cs.reverse with
    | [] => ['-']
    | [c] => if isBreak c then ['+'] else ['-']
    | c :: d :: _ => if !isBreak c then ['-'] else if isBreak d then ['+'] else []
  '|' :: depth ++ ending

/-- A text where the keys around it stand at the indentation `indent`. -/
def scalar (indent : Nat) (cs : List Char) : List Char :=
  match styleOf cs with
  | .plain => cs
  | .singleQuoted =>
    let ending := if cs.getLast?.any isBreak then List.replicate (indent + 2) ' ' else []
    '\'' :: indentLines (indent + 2) false (cs.flatMap doubleQuote) ++ ending ++ ['\'']
  | .doubleQuoted => '"' :: cs.flatMap escapeChar ++ ['"']
  | .literal => literalHeader cs ++ '\n' :: indentLines (indent + 2) true cs

/-- A text up to the end of its last line. A line break at the end of a text that is written as lines is that
end. -/
def scalarLine (indent : Nat) (cs : List Char) : List Char :=
  if styleOf cs = .literal ∧ cs.getLast?.any isBreak then scalar indent cs else scalar indent cs ++ ['\n']

/-- How many bytes the text of a key may take that stands on one line with its value. -/
def keyLimit : Nat := 128

/-- Whether a key stands on one line with its value: it has no line break and is not too long. -/
def isSimpleKey (key : String) : Bool :=
  key.utf8ByteSize ≤ keyLimit && !key.toList.any isBreak

/-- An entry of a mapping whose keys stand at the indentation `indent`. A key that does not stand on one line
with its value is marked, and its value follows below it. -/
def entry (indent : Nat) (key value : String) : List Char :=
  let margin := List.replicate indent ' '
  if isSimpleKey key then
    margin ++ scalar indent key.toList ++ [':', ' '] ++ scalarLine indent value.toList
  else
    margin ++ ['?', ' '] ++ scalarLine indent key.toList ++ margin ++ [':', ' '] ++
      scalarLine indent value.toList

end Bracketed.Yaml
