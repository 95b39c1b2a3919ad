import EntityForge.Registry.Token

/-!
# The imports list of a registry

The list is what the brackets after the first `imports:` enclose. Only brackets in code count, and
the list ends at the bracket that balances the one it begins with.
-/

namespace EntityForge.Registry

open Text

/-- The brackets of an imports list and the code between them. -/
structure ImportsList where
  opening : Token
  entries : List Token
  closing : Token
  deriving DecidableEq, Repr

namespace ImportsList

/-- The first bracket that directly follows the word `imports` and a colon, and the code after
it. -/
def opening? : List Token → Option (Token × List Token)
  | a :: b :: c :: rest =>
    if isWord (bytesOf "imports") a && isMark 0x3A b && isMark 0x5B c then some (c, rest)
    else opening? (b :: c :: rest)
  | _ => none

/-- The code up to the bracket that closes a list, and that bracket; the code begins `depth`
brackets inside the list. -/
def closing? (depth : Nat) : List Token → Option (List Token × Token)
  | [] => none
  | t :: rest =>
    if isMark 0x5D t then
      match depth with
      | 0 => some ([], t)
      | outer + 1 => (closing? outer rest).map fun p => (t :: p.1, p.2)
    else
      (closing? (if isMark 0x5B t then depth + 1 else depth) rest).map fun p => (t :: p.1, p.2)

/-- The first imports list. If it is never closed there is none, whatever follows. -/
def ofTokens? (ts : List Token) : Option ImportsList := do
  let (opening, rest) ← opening? ts
  let (entries, closing) ← closing? 0 rest
  return ⟨opening, entries, closing⟩

/-- The imports list of a document. -/
def find? (document : List Char) : Option ImportsList :=
  ofTokens? (tokens document)

/-- Whether a word stands in the list as code. -/
def hasWord (list : ImportsList) (word : List UInt8) : Bool :=
  list.entries.any (isWord word)

end ImportsList

end EntityForge.Registry
