/-!
# The bytes of a text

A text is stored as UTF-8. Positions in it count bytes, and only some of them lie between two
characters: a text can be cut there and nowhere else.
-/

namespace EntityForge.Text

/-- The bytes of a text. -/
def bytes (s : List Char) : List UInt8 :=
  s.flatMap String.utf8EncodeChar

/-- The bytes of a string. -/
def bytesOf (s : String) : List UInt8 :=
  bytes s.toList

/-- Cuts a text after its first `n` bytes, if that is not inside a character or past the end. -/
def cut? : List Char → Nat → Option (List Char × List Char)
  | s, 0 => some ([], s)
  | [], _ + 1 => none
  | c :: rest, n + 1 =>
    if c.utf8Size ≤ n + 1 then
      (cut? rest (n + 1 - c.utf8Size)).map fun p => (c :: p.1, p.2)
    else none

/-- A stretch of a text, from the byte at `start` up to the byte at `stop`. -/
structure Span where
  start : Nat
  stop : Nat
  deriving DecidableEq, Repr

/-- The characters of a stretch, if it starts and stops between characters. -/
def Span.slice? (span : Span) (s : List Char) : Option (List Char) := do
  let (_, rest) ← cut? s span.start
  guard (span.start ≤ span.stop)
  let (part, _) ← cut? rest (span.stop - span.start)
  return part

/-- The characters of a stretch, none if it cuts a character. -/
def Span.slice (span : Span) (s : List Char) : List Char :=
  (span.slice? s).getD []

end EntityForge.Text
