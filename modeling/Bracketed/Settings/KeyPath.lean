import Bracketed.Settings.Merge

namespace Bracketed

/-- One step from a setting to a setting inside it. -/
inductive KeyStep where
  | name (s : String)
  /-- A place in an array, counted from its end if it is negative. -/
  | index (i : Int)
  deriving DecidableEq

/-- Where a setting stands: the steps to it from the table of all settings. -/
structure KeyPath where
  first : String
  rest : List KeyStep
  deriving DecidableEq

namespace KeyPath

/-- The characters of names. -/
def isNameChar (c : Char) : Bool :=
  ('a' ≤ c && c ≤ 'z') || ('A' ≤ c && c ≤ 'Z') || ('0' ≤ c && c ≤ '9') || c == '_' || c == ' ' || c == '-'

/-- Reads the integer that an index is written with, between blanks. It must fit into 64 bits. -/
def index? (cs : List Char) : Option Int := do
  let isBlank (c : Char) := c == ' ' || c == '\t'
  let cs := ((cs.dropWhile isBlank).reverse.dropWhile isBlank).reverse
  let (negative, digits) := match cs with
    | '-' :: rest => (true, rest)
    | rest => (false, rest)
  if digits.isEmpty || digits.any fun c => !c.isDigit then none
  else
    let n := Decimal.ofDigits digits
    if negative then if n ≤ powerOfTwo 63 then some (-(n : Int)) else none
    else if n < powerOfTwo 63 then some n else none

/-- A name without its capitals, which do not matter. -/
def foldedName (read : List Char) : String :=
  String.ofList (read.map Char.toLower)

/-- What has been read of a step: nothing yet, a name, or an index in brackets. -/
inductive Part where
  | none
  | name (read : List Char)
  | index (read : List Char)

/-- Reads the steps of a path from right to left. The result holds the steps that are complete and the
part of a step that the text begins with. -/
def partsOf? : List Char → Option (Part × List KeyStep)
  | [] => some (.none, [])
  | c :: cs => do
    match ← partsOf? cs with
    | (.none, steps) =>
      if isNameChar c then return (.name [c], steps)
      else if c = ']' then return (.index [], steps)
      else none
    | (.name read, steps) =>
      if isNameChar c then return (.name (c :: read), steps)
      else if c = '.' then return (.none, .name (foldedName read) :: steps)
      else none
    | (.index read, steps) =>
      if c = '[' then return (.none, .index (← index? read) :: steps) else return (.index (c :: read), steps)

/-- Reads a path: a name, and then any number of names after a point each and indices in brackets. -/
def read? (key : String) : Option KeyPath := do
  match ← partsOf? key.toList with
  | (.name first, rest) => return { first := foldedName first, rest }
  | _ => none

end KeyPath

namespace Setting

/-- The place in an array of this length that an index stands for, which may lie in front of the array. -/
def place (index : Int) (length : Nat) : Int :=
  if index < 0 then index + length else index

/-- An array with a place for an index: what is missing before its first item or after its last one is
nil. Returns what stands in front of the place, what stands there, and what comes behind it. -/
def itemAt (index : Int) (items : List Setting) : List Setting × Setting × List Setting :=
  match place index items.length with
  | .ofNat i =>
    (items.take i ++ List.replicate (i - items.length) nil, items[i]?.getD nil, items.drop (i + 1))
  | .negSucc i => ([], nil, List.replicate i nil ++ items)

/-- What a setting becomes when the setting at the end of the steps is set to a value. On the way,
whatever is not of the kind that a step needs is replaced by an empty table or array. -/
def setAt (value : Setting) : List KeyStep → Option Setting → Setting
  | [], existing => mergedInto existing value
  | [.index i], existing =>
    let (before, _, behind) := itemAt i (existing.getD nil).items
    array (before ++ value :: behind)
  | .name name :: rest, existing =>
    let entries := (existing.getD nil).entries
    table (putEntry name (setAt value rest (entries.lookup name)) entries)
  | .index i :: step :: rest, existing =>
    let (before, item, behind) := itemAt i (existing.getD nil).items
    array (before ++ setAt value (step :: rest) (some item) :: behind)

/-- Sets the setting at a path in the table of all settings. -/
def set (settings : List (String × Setting)) (path : KeyPath) (value : Setting) : List (String × Setting) :=
  putEntry path.first (setAt value path.rest (settings.lookup path.first)) settings

end Setting

end Bracketed
