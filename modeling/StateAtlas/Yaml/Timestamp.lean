import StateAtlas.Data.Datum
import StateAtlas.Fault
import StateAtlas.Yaml.Cursor

set_option autoImplicit false

/-!
# Dates and times

A timestamp is a date, with or without a time of day, with or without a time zone.

## Main definitions

* `StateAtlas.Timestamp` — a date with an optional time.
* `StateAtlas.Timestamp.read?` — the timestamp that a text has the form of.
* `StateAtlas.Timestamp.fault?` — what is wrong with a timestamp.
* `StateAtlas.Timestamp.datum` — a timestamp with its two texts.
-/

namespace StateAtlas

/-- A time of day. -/
structure TimeOfDay where
  hour : Nat
  minute : Nat
  second : Nat
  microsecond : Nat
  /-- The minutes by which the time zone is ahead of the standard one. -/
  zone : Option Int
  deriving DecidableEq, Repr

/-- A date with an optional time. -/
structure Timestamp where
  year : Nat
  month : Nat
  day : Nat
  time : Option TimeOfDay
  deriving DecidableEq, Repr

namespace Timestamp

/-! ### Reading -/

/-- The value of digits. -/
def number (ds : List Char) : Nat := ds.foldl (fun n c => 10 * n + (c.toNat - 48)) 0

/-- A number of at least `least` and at most `most` digits, and what follows. -/
def digits? (least most : Nat) (cs : List Char) : Option (Nat × List Char) :=
  let ds := (cs.take most).takeWhile Char.isDigit
  if ds.length < least then none else some (number ds, cs.drop ds.length)

/-- What follows a character. -/
def after? (c : Char) : List Char → Option (List Char)
  | x :: xs => if x == c then some xs else none
  | [] => none

/-- The date at the start of a text, and what follows. -/
def date? (cs : List Char) : Option (Nat × Nat × Nat × List Char) := do
  let (year, cs) ← digits? 4 4 cs
  let cs ← after? '-' cs
  let (month, cs) ← digits? 1 2 cs
  let cs ← after? '-' cs
  let (day, cs) ← digits? 1 2 cs
  some (year, month, day, cs)

/-- Whether a character is a space or a tab. -/
def isSpacing (c : Char) : Bool := c == ' ' || c == '\t'

/-- What follows the sign or the blanks between date and time. -/
def afterDate? (cs : List Char) : Option (List Char) :=
  match cs with
  | 'T' :: rest | 't' :: rest => some rest
  | c :: _ => if isSpacing c then some (cs.dropWhile isSpacing) else none
  | [] => none

/-- The millionths of a second that digits after a point stand for. -/
def microseconds (ds : List Char) : Nat :=
  let ds := ds.take 6
  number (ds ++ List.replicate (6 - ds.length) '0')

/-- A fraction of a second, and what follows. -/
def fraction (cs : List Char) : Nat × List Char :=
  match cs with
  | '.' :: rest => (microseconds (rest.takeWhile Char.isDigit), rest.dropWhile Char.isDigit)
  | _ => (0, cs)

/-- The minutes of a distance between time zones, with which a text ends. -/
def distance? (cs : List Char) : Option Nat := do
  let (hours, cs) ← digits? 1 2 cs
  match cs with
  | [] => some (60 * hours)
  | ':' :: rest =>
    let (minutes, rest) ← digits? 2 2 rest
    if rest.isEmpty then some (60 * hours + minutes) else none
  | _ => none

/-- The time zone with which a text ends. -/
def zone? (cs : List Char) : Option (Option Int) :=
  match cs with
  | [] => some none
  | cs =>
    match cs.dropWhile isSpacing with
    | ['Z'] => some (some 0)
    | '+' :: rest => (distance? rest).map fun n => some (n : Int)
    | '-' :: rest => (distance? rest).map fun n => some (-(n : Int))
    | _ => none

/-- The time of day with which a text ends. -/
def time? (cs : List Char) : Option TimeOfDay := do
  let cs ← afterDate? cs
  let (hour, cs) ← digits? 1 2 cs
  let cs ← after? ':' cs
  let (minute, cs) ← digits? 2 2 cs
  let cs ← after? ':' cs
  let (second, cs) ← digits? 2 2 cs
  let (microsecond, cs) := fraction cs
  let zone ← zone? cs
  some { hour, minute, second, microsecond, zone }

/-- The timestamp that a text has the form of. -/
def read? (cs : List Char) : Option Timestamp := do
  let (year, month, day, cs) ← date? cs
  match cs with
  | [] => some ⟨year, month, day, none⟩
  | cs => (time? cs).map fun t => ⟨year, month, day, some t⟩

/-- Whether a plain text is a timestamp: a date alone is written with all digits. -/
def isTimestamp (cs : List Char) : Bool :=
  match read? cs with
  | some t => t.time.isSome || cs.length == 10
  | none => false

/-! ### Checking -/

/-- Whether a year has a leap day. -/
def isLeap (year : Nat) : Bool := year % 4 == 0 && (year % 100 != 0 || year % 400 == 0)

/-- The number of days of a month. -/
def daysIn (year month : Nat) : Nat :=
  if month == 2 then (if isLeap year then 29 else 28)
  else if [4, 6, 9, 11].contains month then 30
  else 31

/-- The text of a distance in minutes. -/
def distanceText (minutes : Int) : String :=
  let days := minutes / 1440
  let seconds := minutes % 1440 * 60
  let parts :=
    (if days == 0 then [] else ["days=" ++ toString days]) ++
    (if seconds == 0 then [] else ["seconds=" ++ toString seconds])
  "datetime.timedelta(" ++ (if parts.isEmpty then "0" else String.intercalate ", " parts) ++ ")"

/-- What is wrong with a date. -/
def dateFault? (t : Timestamp) : Option CalendarFault :=
  if t.year == 0 then some (.year 0)
  else if t.month == 0 || 12 < t.month then some .month
  else if t.day == 0 || daysIn t.year t.month < t.day then some .day
  else none

/-- What is wrong with a time zone. -/
def zoneFault? (x : TimeOfDay) : Option CalendarFault :=
  match x.zone with
  | some n => if 1440 ≤ n.natAbs then some (.zone (distanceText n)) else none
  | none => none

/-- What is wrong with a time of day. -/
def timeFault? (x : TimeOfDay) : Option CalendarFault :=
  if 23 < x.hour then some .hour
  else if 59 < x.minute then some .minute
  else if 59 < x.second then some .second
  else none

/-- What is wrong with a timestamp: its zone is looked at first, then date and time. -/
def fault? (t : Timestamp) : Option CalendarFault :=
  t.time.bind zoneFault? <|> dateFault? t <|> t.time.bind timeFault?

/-! ### Writing -/

/-- A number in at least `width` digits. -/
def padded (width n : Nat) : String :=
  let s := toString n
  String.ofList (List.replicate (width - s.length) '0') ++ s

/-- The text of a date. -/
def dateText (t : Timestamp) : String :=
  padded 4 t.year ++ "-" ++ padded 2 t.month ++ "-" ++ padded 2 t.day

/-- The text of a time zone. -/
def zoneText (minutes : Int) : String :=
  (if minutes < 0 then "-" else "+") ++ padded 2 (minutes.natAbs / 60) ++ ":" ++
    padded 2 (minutes.natAbs % 60)

/-- The text of a time of day. -/
def timeText (x : TimeOfDay) : String :=
  padded 2 x.hour ++ ":" ++ padded 2 x.minute ++ ":" ++ padded 2 x.second ++
    (if x.microsecond == 0 then "" else "." ++ padded 6 x.microsecond) ++
    (x.zone.map zoneText).getD ""

/-- The text of a time zone as it stands inside another text. -/
def zoneQuoted (minutes : Int) : String :=
  if minutes == 0 then "datetime.timezone.utc"
  else "datetime.timezone(" ++ distanceText minutes ++ ")"

/-- The parts of a time of day as they stand inside another text: seconds and millionths of a
second are left out where all that follows is zero. -/
def timeParts (x : TimeOfDay) : List String :=
  let small :=
    if x.microsecond != 0 then [x.second, x.microsecond]
    else if x.second != 0 then [x.second]
    else []
  ([x.hour, x.minute] ++ small).map toString ++
    (x.zone.map fun n => "tzinfo=" ++ zoneQuoted n).toList

/-- A timestamp with its two texts. -/
def datum (t : Timestamp) : Datum :=
  let parts := [t.year, t.month, t.day].map toString
  match t.time with
  | none => .foreign "date" t.dateText ("datetime.date(" ++ String.intercalate ", " parts ++ ")")
  | some x =>
    .foreign "datetime" (t.dateText ++ " " ++ timeText x)
      ("datetime.datetime(" ++ String.intercalate ", " (parts ++ timeParts x) ++ ")")

end Timestamp

end StateAtlas
