/-!
# `CilBind.Toml.Error`: places in a TOML document and the errors that point at them

A span is a pair of character offsets into the document, the stop excluded; an
empty span points between two characters. An error is a span and a message,
and a message that names what the reader expected lists it after the word
"expected": literal text in backticks (a line break as the word "newline"),
descriptions as they are, and "nothing" when nothing would have done.

The report of an error names the line and the column of the span's start,
shows that line under a gutter as wide as the line number, and underlines the
span with carets, one for each byte of its UTF-8 text but no further than the
line's end, and always at least one.
-/

set_option autoImplicit false

namespace CilBind

namespace Toml

/-- Character offsets `[start, stop)` into a document. -/
structure Span where
  start : Nat
  stop : Nat
  deriving DecidableEq, Repr, Inhabited

namespace Span

/-- The empty span at offset `i`. -/
def point (i : Nat) : Span := ⟨i, i⟩

/-- The empty span where `s` starts. -/
def before (s : Span) : Span := point s.start

/-- The empty span where `s` stops. -/
def after (s : Span) : Span := point s.stop

/-- From the start of `a` to the stop of `b`. -/
def join (a b : Span) : Span := ⟨a.start, b.stop⟩

/-- `s` moved on by `base` characters: a span inside a piece of text made a
span of the document the piece starts at `base` in. -/
def shift (base : Nat) (s : Span) : Span := ⟨base + s.start, base + s.stop⟩

theorem shift_zero (s : Span) : shift 0 s = s := by
  simp [shift]

end Span

/-- What a reader would have accepted where it stopped. -/
inductive Expected where
  /-- This exact text. -/
  | literal (text : String)
  /-- A kind of text, in words. -/
  | description (text : String)
  deriving DecidableEq, Repr

/-- How an expectation is written in a message. -/
def Expected.render : Expected → String
  | .literal "\n" => "newline"
  | .literal t => "`" ++ t ++ "`"
  | .description t => t

/-- Why a document cannot be read: the span it points at and the reason. -/
structure Error where
  span : Span
  message : String
  deriving Repr

namespace Error

/-- The error `what` at `span`, followed by what was expected there; an empty
list says that nothing was. -/
def expecting (span : Span) (what : String) (expected : List Expected) : Error :=
  let list := if expected.isEmpty then "nothing"
    else ", ".intercalate (expected.map Expected.render)
  ⟨span, what ++ ", expected " ++ list⟩

end Error

/-- The number of bytes that characters take in UTF-8. -/
def utf8Width : List Char → Nat
  | [] => 0
  | c :: cs => c.utf8Size + utf8Width cs

/-- The width of two runs of characters is the sum of their widths. -/
theorem utf8Width_append (as bs : List Char) :
    utf8Width (as ++ bs) = utf8Width as + utf8Width bs := by
  induction as with
  | nil => simp [utf8Width]
  | cons c cs ih => simp [utf8Width, ih, Nat.add_assoc]

/-- `(line, column)` of a character offset, both from zero. An offset at or
past the last character is reported on the last character's line, columns
counting on past it. The column counts characters, except at a character that
takes more than one byte in UTF-8: the line up to it and that character's first
byte do not make whole characters, so the column there counts the bytes of the
line before it. -/
def position (src : Array Char) (index : Nat) : Nat × Nat :=
  if src.size = 0 then (0, index)
  else
    let safe := min index (src.size - 1)
    let before := (src.extract 0 safe).toList
    let lineStart := before.length - (before.reverse.takeWhile (· ≠ '\n')).length
    let line := (before.take lineStart).count '\n'
    let column :=
      if index ≥ src.size || (src[safe]?.getD ' ').utf8Size = 1 then safe - lineStart
      else utf8Width (before.drop lineStart)
    (line, column + (index - safe))

/-- The full report of an error in document `text`. -/
def Error.render (text : String) (e : Error) : String :=
  let src := text.toList.toArray
  let (line, column) := position src e.span.start
  let lineNum := line + 1
  let gutter := String.ofList (List.replicate ((toString lineNum).length + 1) ' ')
  let content := ((text.splitOn "\n")[line]?).getD ""
  let spanWidth := utf8Width (src.extract e.span.start e.span.stop).toList
  let width := min spanWidth (content.utf8ByteSize - column)
  let carets := String.ofList (List.replicate (max width 1) '^')
  s!"TOML parse error at line {lineNum}, column {column + 1}\n" ++
    gutter ++ "|\n" ++ s!"{lineNum} | {content}\n" ++
    gutter ++ "|" ++ String.ofList (List.replicate (column + 1) ' ') ++ carets ++ "\n" ++
    e.message ++ "\n"

end Toml

end CilBind
