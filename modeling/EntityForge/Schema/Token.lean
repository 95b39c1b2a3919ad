import EntityForge.Text.Bytes
import EntityForge.Text.Lexeme

/-!
# Tokens of a schema

Of a schema only words and braces matter. Line comments and double-quoted strings are read as units,
so that no word or brace inside them counts.
-/

namespace EntityForge.Schema

open Text

/-- What a stretch of a schema is. -/
inductive Kind where
  | word
  | opening
  | closing
  | comment
  | quoted
  | other
  deriving DecidableEq, Repr

/-- The kind of the lexeme that starts with `b`, and how many bytes of `rest` belong to it. -/
def next (b : UInt8) (rest : List UInt8) : Kind × Nat :=
  if b = 0x2F ∧ rest.head? = some 0x2F then (.comment, runLength (· != 0xA) rest)
  else if b = 0x22 then (.quoted, quotedLength 0x22 rest)
  else if b = 0x7B then (.opening, 0)
  else if b = 0x7D then (.closing, 0)
  else if isWordByte b then (.word, runLength isWordByte rest)
  else (.other, 0)

/-- Whether a lexeme counts when blocks are looked for. -/
def Kind.isToken : Kind → Bool
  | .word | .opening | .closing => true
  | .comment | .quoted | .other => false

/-- A word or a brace with its place in the schema. -/
abbrev Token := Lexeme Kind

/-- The words and braces of a schema. -/
def tokens (schema : List Char) : List Token :=
  (lexemes next 0 (bytes schema)).filter (·.kind.isToken)

end EntityForge.Schema
