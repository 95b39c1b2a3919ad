/-!
# Lexemes

A scanner reads bytes from the left. Each time it looks at the next byte and what follows it and
says what kind of lexeme starts there and how many further bytes belong to it; so the lexemes tile
the text.
-/

namespace EntityForge.Text

/-- A stretch of bytes that was read as one unit. -/
structure Lexeme (κ : Type) where
  kind : κ
  start : Nat
  bytes : List UInt8
  deriving DecidableEq, Repr

/-- The offset just past a lexeme. -/
def Lexeme.stop {κ : Type} (l : Lexeme κ) : Nat :=
  l.start + l.bytes.length

/-- Cuts bytes into lexemes; the first byte stands at offset `start`. -/
def lexemes {κ : Type} (next : UInt8 → List UInt8 → κ × Nat) (start : Nat) :
    List UInt8 → List (Lexeme κ)
  | [] => []
  | b :: rest =>
    let (kind, count) := next b rest
    let lexeme : Lexeme κ := ⟨kind, start, b :: rest.take count⟩
    lexeme :: lexemes next lexeme.stop (rest.drop count)
termination_by s => s.length
decreasing_by
  simp only [List.length_drop, List.length_cons]
  omega

/-- The bytes of a quoted literal after its opening quote, the closing one included. A backslash
takes the next byte with it; an unclosed literal reaches to the end. -/
def quotedLength (quote : UInt8) : List UInt8 → Nat
  | [] => 0
  | [_] => 1
  | b :: c :: rest =>
    if b = 0x5C then 2 + quotedLength quote rest
    else if b = quote then 1
    else 1 + quotedLength quote (c :: rest)

/-- The number of leading bytes that pass a test. -/
def runLength (p : UInt8 → Bool) (s : List UInt8) : Nat :=
  (s.takeWhile p).length

/-- Whether a byte is an ASCII letter or digit. -/
def isAlphanumeric (b : UInt8) : Bool :=
  (0x30 ≤ b && b ≤ 0x39) || (0x41 ≤ b && b ≤ 0x5A) || (0x61 ≤ b && b ≤ 0x7A)

/-- Whether a byte can stand in a name: an ASCII letter or digit, an underscore, or any part of a
character beyond ASCII. -/
def isWordByte (b : UInt8) : Bool :=
  isAlphanumeric b || b == 0x5F || 0x80 ≤ b

end EntityForge.Text
