import EntityForge.Text.Bytes
import EntityForge.Text.Lexeme

/-!
# Tokens of a registry

The registry is the TypeScript module that imports the module of every entity. It is read as words,
punctuation and quoted literals; white space and comments lie between these.
-/

namespace EntityForge.Registry

open Text

/-- What a stretch of a registry is. -/
inductive Kind where
  | word
  | punctuation
  | literal
  | lineComment
  | blockComment
  | space
  deriving DecidableEq, Repr

/-- Whether a byte can stand in an identifier. -/
def isIdentifierByte (b : UInt8) : Bool :=
  isAlphanumeric b || b == 0x5F || b == 0x24 || 0x80 ≤ b

/-- Whether a byte is a quotation mark of one of the three sorts. -/
def isQuote (b : UInt8) : Bool :=
  b == 0x22 || b == 0x27 || b == 0x60

/-- Whether a byte is ASCII white space. -/
def isSpaceByte (b : UInt8) : Bool :=
  b == 0x20 || b == 0x9 || b == 0xA || b == 0xC || b == 0xD

/-- The bytes of a block comment after its first two, up to and with the first star and slash. An
unclosed one reaches to the end. -/
def commentLength : List UInt8 → Nat
  | [] => 0
  | [_] => 1
  | b :: c :: rest =>
    if b = 0x2A ∧ c = 0x2F then 2
    else 1 + commentLength (c :: rest)

/-- The kind of the lexeme that starts with `b`, and how many bytes of `rest` belong to it. -/
def next (b : UInt8) (rest : List UInt8) : Kind × Nat :=
  if b = 0x2F ∧ rest.head? = some 0x2F then (.lineComment, runLength (· != 0xA) rest)
  else if b = 0x2F ∧ rest.head? = some 0x2A then (.blockComment, 1 + commentLength rest.tail)
  else if isQuote b then (.literal, quotedLength b rest)
  else if isSpaceByte b then (.space, 0)
  else if isIdentifierByte b then (.word, runLength isIdentifierByte rest)
  else (.punctuation, 0)

/-- Whether a lexeme is code. -/
def Kind.isCode : Kind → Bool
  | .word | .punctuation | .literal => true
  | .lineComment | .blockComment | .space => false

/-- A piece of code with its place in the registry. -/
abbrev Token := Lexeme Kind

/-- The code of a registry. -/
def tokens (document : List Char) : List Token :=
  (lexemes next 0 (bytes document)).filter (·.kind.isCode)

/-- Whether a token is a certain word. -/
def isWord (word : List UInt8) (t : Token) : Bool :=
  t.kind = .word && t.bytes == word

/-- Whether a token is a certain punctuation mark. -/
def isMark (mark : UInt8) (t : Token) : Bool :=
  t.kind = .punctuation && t.bytes == [mark]

end EntityForge.Registry
