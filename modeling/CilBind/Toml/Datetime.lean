/-!
# `CilBind.Toml.Datetime`: dates and times of day in TOML

A TOML date-time is a full date (`1979-05-27`), a time of day (`07:32:00`,
the seconds optional, a fraction of a second after a point), or both, joined by
`T`, `t` or a space, and then possibly an offset from UTC: `Z` or `z`, or a
signed `HH:MM`. The text is cut into pieces first (runs of digits, and the
single characters `-`, `:`, `.`, `T`, a space, `Z`, `+`), and the pieces are read
in order. A year has four digits, the other fields two; a month runs from 1 to
12, a day up to the length of its month (February has 29 days in a year that
divides by 4 but not by 100, unless by 400); an hour runs to 23, a minute to 59,
a second to 60, the offset's hours to 23 and its minutes to 59.

The first piece that does not fit is reported as what was being read and what
was expected there; lengths are checked only once all the digits of a date or a
time are found, and ranges after lengths.
-/

set_option autoImplicit false

namespace CilBind

namespace Toml

/-- A calendar date. -/
structure Date where
  year : Nat
  month : Nat
  day : Nat
  deriving DecidableEq, Repr

/-- A time of day. -/
structure Time where
  hour : Nat
  minute : Nat
  second : Nat
  /-- The digits after the point, as written. -/
  fraction : String
  deriving DecidableEq, Repr

/-- An offset from UTC. -/
inductive Offset where
  | utc
  /-- Minutes east of UTC. -/
  | minutes (m : Int)
  deriving DecidableEq, Repr

/-- A date, a time of day, or both, with an offset when both are there. -/
structure Datetime where
  date : Option Date
  time : Option Time
  offset : Option Offset
  deriving DecidableEq, Repr

namespace Datetime

/-- One piece of date-time text. -/
inductive Piece where
  | digits (ds : List Char)
  | dash
  | colon
  | dot
  | tee
  | space
  | zulu
  | plus
  | other
  deriving DecidableEq, Repr, Inhabited

/-- The piece a single character that is not a digit makes. -/
def Piece.ofChar : Char → Piece
  | '-' => .dash
  | ':' => .colon
  | '.' => .dot
  | 'T' | 't' => .tee
  | ' ' => .space
  | 'Z' | 'z' => .zulu
  | '+' => .plus
  | _ => .other

/-- The pieces of a text, with `run` the digits read so far, in reverse. -/
def piecesFrom : List Char → List Char → List Piece
  | [], run => if run.isEmpty then [] else [.digits run.reverse]
  | c :: cs, run =>
    if c.isDigit then piecesFrom cs (c :: run)
    else
      let rest := Piece.ofChar c :: piecesFrom cs []
      if run.isEmpty then rest else .digits run.reverse :: rest

/-- The pieces of a text. -/
def pieces (cs : List Char) : List Piece := piecesFrom cs []

/-- Why a text is not a date-time: what was being read, if known, and what was
expected there, if anything in particular. -/
structure Fault where
  what : Option String
  expected : Option String

/-- The message of a fault. -/
def Fault.message (f : Fault) : String :=
  "invalid " ++ f.what.getD "datetime" ++
    (match f.expected with
     | some e => ", expected " ++ e
     | none => "")

/-- Reading the pieces of a date-time. -/
abbrev Reader := StateT (List Piece) (Except Fault)

/-- Stops with a fault. -/
def fault {α : Type} (what : Option String) (expected : Option String) : Reader α :=
  throw ⟨what, expected⟩

/-- The next piece, taken. -/
def take : Reader (Option Piece) := do
  match ← get with
  | [] => pure none
  | p :: ps => set ps; pure (some p)

/-- The next piece, left in place. -/
def peek : Reader (Option Piece) := do
  pure (← get).head?

/-- A run of digits, or the fault of `what` expecting `expected`. -/
def digits (what expected : String) : Reader (List Char) := do
  match ← take with
  | some (.digits ds) => pure ds
  | _ => fault (some what) (some expected)

/-- The piece `p`, or the fault of `what` expecting `expected`. -/
def piece (p : Piece) (what expected : String) : Reader Unit := do
  if (← take) = some p then pure () else fault (some what) (some expected)

/-- The value of a run of digits. -/
def number (ds : List Char) : Nat := ds.foldl (fun n c => 10 * n + (c.toNat - 48)) 0

/-- Whether a year has a 29th of February. -/
def isLeap (year : Nat) : Bool := year % 4 = 0 && (year % 100 ≠ 0 || year % 400 = 0)

/-- The last day of a month, and how the check of a day words it. -/
def monthLength (year month : Nat) : Nat × String :=
  if month = 2 then (if isLeap year then (29, "day between 01 and 29") else (28, "day between 01 and 28"))
  else if month = 4 || month = 6 || month = 9 || month = 11 then (30, "day between 01 and 30")
  else (31, "day between 01 and 31")

/-- A full date after its year, whose dash has been read. -/
def dateAfterYear (year : List Char) : Reader Date := do
  let month ← digits "date" "month"
  piece .dash "date" "`-` (MM-DD)"
  let day ← digits "date" "day"
  if year.length ≠ 4 then fault (some "date") (some "a four-digit year (YYYY)")
  if month.length ≠ 2 then fault (some "date") (some "a two-digit month (MM)")
  if day.length ≠ 2 then fault (some "date") (some "a two-digit day (DD)")
  let d : Date := ⟨number year, number month, number day⟩
  if d.month < 1 || d.month > 12 then fault (some "date") (some "month between 01 and 12")
  let (last, wording) := monthLength d.year d.month
  if d.day < 1 || d.day > last then fault (some "date") (some wording)
  pure d

/-- A time of day: hours and minutes, then seconds and a fraction if given. -/
def timeOfDay : Reader Time := do
  let hour ← digits "time" "hour"
  piece .colon "time" "`:` (HH:MM)"
  let minute ← digits "time" "minute"
  let second ← if (← peek) = some .colon then do
      let _ ← take
      pure (some (← digits "time" "second"))
    else pure none
  let fraction ← if second.isSome && (← peek) = some .dot then do
      let _ ← take
      pure (← digits "time" "nanosecond")
    else pure []
  if hour.length ≠ 2 then fault (some "time") (some "a two-digit hour (HH)")
  if minute.length ≠ 2 then fault (some "time") (some "a two-digit minute (MM)")
  if (second.map List.length).getD 2 ≠ 2 then fault (some "time") (some "a two-digit second (SS)")
  let t : Time := ⟨number hour, number minute, number (second.getD []), String.ofList fraction⟩
  if t.hour > 23 then fault (some "time") (some "hour between 00 and 23")
  if t.minute > 59 then fault (some "time") (some "minute between 00 and 59")
  if t.second > 60 then fault (some "time") (some "second between 00 and 60")
  pure t

/-- A numeric offset after its sign. -/
def offsetAfterSign (negative : Bool) : Reader Offset := do
  let hours ← digits "offset" "hour"
  piece .colon "offset" "`:` (HH:MM)"
  let minutes ← digits "offset" "minute"
  if hours.length ≠ 2 then fault (some "offset") (some "a two-digit hour (HH)")
  if minutes.length ≠ 2 then fault (some "offset") (some "a two-digit minute (MM)")
  if number hours > 23 then fault (some "offset") (some "hours between 00 and 23")
  if number minutes > 59 then fault (some "offset") (some "minutes between 00 and 59")
  let total : Int := number hours * 60 + number minutes
  pure (.minutes (if negative then -total else total))

/-- A whole date-time. -/
def reader (all : List Piece) : Reader Datetime := do
  let first ← take
  let year ← match first with
    | some (.digits ds) => pure ds
    | _ => fault none (some "year or hour")
  let date ← match ← take with
    | some .dash => some <$> dateAfterYear year
    | some .colon => do set all; pure none
    | _ => fault none (some "`-` (YYYY-MM) or `:` (HH:MM)")
  let wantsTime ← if date.isSome then do
      match ← take with
      | some .tee | some .space => pure true
      | some _ => fault (some "date-time") (some "`T` between date and time")
      | none => pure false
    else pure true
  let t ← if wantsTime then some <$> timeOfDay else pure none
  let offset ← if date.isSome && t.isSome then do
      match ← take with
      | some .zulu => pure (some .utc)
      | some .plus => some <$> offsetAfterSign false
      | some .dash => some <$> offsetAfterSign true
      | some _ => fault (some "offset") (some "`Z`, +OFFSET, -OFFSET")
      | none => pure none
    else pure none
  if !(← get).isEmpty then fault none none
  pure ⟨date, t, offset⟩

/-- The date-time a text writes, or the fault that stops it. -/
def ofText (cs : List Char) : Except Fault Datetime :=
  let ps := pieces cs
  (reader ps).run' ps

end Datetime

end Toml

end CilBind
