import EntityForge.Text.CaseTable

/-!
# Upper and lower case

Characters are mapped one by one, a character to a list of characters. Only the lower-case form of
a whole text looks around: a capital sigma that ends a word becomes the final sigma.
-/

namespace EntityForge.Text

/-- The lower-case form of a character. -/
def lower (c : Char) : List Char :=
  if c.toNat < 0x80 then [c.toLower]
  else if c.toNat = 0x130 then ['i', Char.ofNat 0x307]
  else [Char.ofNat (shifted lowerRuns c.toNat)]

/-- The upper-case form of a character. -/
def upper (c : Char) : List Char :=
  if c.toNat < 0x80 then [c.toUpper]
  else
    match upperExpansions.lookup c.toNat with
    | some codes => codes.map Char.ofNat
    | none => [Char.ofNat (shifted upperRuns c.toNat)]

/-- Whether the nearest character that counts as part of a word has a case. -/
def meetsCased (s : List Char) : Bool :=
  match s.dropWhile (fun c => inRanges caseIgnorableRanges c.toNat) with
  | c :: _ => inRanges casedRanges c.toNat
  | [] => false

/-- Lower-cases the rest of a text; `before` holds what precedes it, nearest character first. -/
def lowerAfter (before : List Char) : List Char → List Char
  | [] => []
  | c :: rest =>
    let image :=
      if c = 'Σ' then
        [if meetsCased before && !meetsCased rest then 'ς' else 'σ']
      else lower c
    image ++ lowerAfter (c :: before) rest

/-- The lower-case form of a text. -/
def lowerCase (s : List Char) : List Char :=
  lowerAfter [] s

/-- A text with its first character in upper case and every other one, on its own, in lower case. -/
def capitalize : List Char → List Char
  | [] => []
  | c :: rest => upper c ++ rest.flatMap lower

end EntityForge.Text
