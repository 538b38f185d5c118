import ModuleAssembly.Text.Integer

/-!
# Moments

A moment is a date, or a date with a time of day and perhaps the offset of a time zone.
`Moment.ofText?` reads the forms in which a YAML document writes one: month, day and hours may have
one digit. Without a tag a date alone needs two for month and day, as `Moment.isWritten` asks.
`Moment.fault?` says what keeps such numbers from being a moment of the calendar.
-/

namespace ModuleAssembly.Yaml

/-- A time of day. -/
structure TimeOfDay where
  /-- Hours since midnight. -/
  hour : Nat
  /-- Minutes since the hour. -/
  minute : Nat
  /-- Seconds since the minute. -/
  second : Nat
deriving DecidableEq, Repr, Inhabited

/-- A date and perhaps a time, as numbers that need not fit the calendar. -/
structure Moment where
  /-- The year. -/
  year : Nat
  /-- The month, from one on. -/
  month : Nat
  /-- The day of the month, from one on. -/
  day : Nat
  /-- The time of day. -/
  time : Option TimeOfDay := none
  /-- The minutes between the time and the universal time, either way. -/
  offset : Nat := 0
deriving DecidableEq, Repr, Inhabited

namespace Moment

/-! ## Reading -/

/-- Reads from `least` to `most` digits. -/
def number? (least most : Nat) (cs : List Char) : Option (Nat × List Char) :=
  let digits := (cs.takeWhile Char.isDigit).take most
  if digits.length < least then none
  else some (Text.digitsValue digits, cs.drop digits.length)

/-- Reads digits after a mark. -/
def markedNumber? (mark : Char) (least most : Nat) : List Char → Option (Nat × List Char)
  | c :: cs => if c == mark then number? least most cs else none
  | [] => none

/-- Whether a character is a space or a tab. -/
def isGap (c : Char) : Bool :=
  c == ' ' || c == '\t'

/-- The text after what stands between a date and a time: a letter, or gaps. -/
def afterGap? : List Char → Option (List Char)
  | c :: cs =>
    if c == 'T' || c == 't' then some cs
    else if isGap c then some (cs.dropWhile isGap)
    else none
  | [] => none

/-- The text after a fraction of a second, if there is one. -/
def afterFraction : List Char → List Char
  | '.' :: cs => cs.dropWhile Char.isDigit
  | cs => cs

/-- The minutes of a time zone, which ends the text: nothing, a letter, or a sign and hours and
perhaps minutes. -/
def zone? (cs : List Char) : Option Nat :=
  match cs, cs.dropWhile isGap with
  | [], _ => some 0
  | _, ['Z'] => some 0
  | _, sign :: cs => do
    let (hours, cs) ← number? 1 2 cs
    let (minutes, cs) ← if cs.isEmpty then some (0, cs) else markedNumber? ':' 2 2 cs
    if (sign == '+' || sign == '-') && cs.isEmpty then return hours * 60 + minutes else none
  | _, [] => none

/-- Reads the characters of a moment. -/
def ofChars? (cs : List Char) : Option Moment := do
  let (year, rest) ← number? 4 4 cs
  let (month, rest) ← markedNumber? '-' 1 2 rest
  let (day, rest) ← markedNumber? '-' 1 2 rest
  if rest.isEmpty then return { year, month, day }
  else
    let rest ← afterGap? rest
    let (hour, rest) ← number? 1 2 rest
    let (minute, rest) ← markedNumber? ':' 2 2 rest
    let (second, rest) ← markedNumber? ':' 2 2 rest
    let offset ← zone? (afterFraction rest)
    return { year, month, day, time := some ⟨hour, minute, second⟩, offset }

/-- Reads the text of a moment. -/
def ofText? (s : String) : Option Moment :=
  ofChars? s.toList

/-- Whether an unquoted text without a tag writes a moment. -/
def isWritten (s : String) : Bool :=
  (ofText? s).any fun m => m.time.isSome || s.length = 10

/-! ## The calendar -/

/-- What keeps numbers from being a moment. -/
inductive Fault where
  /-- There is no such year. -/
  | year (year : Nat)
  /-- There is no such month. -/
  | month
  /-- The month has no such day. -/
  | day
  /-- There is no such hour. -/
  | hour
  /-- There is no such minute. -/
  | minute
  /-- There is no such second. -/
  | second
  /-- A time zone is a day off or more. -/
  | offset
deriving DecidableEq, Repr, Inhabited

/-- The wording of a fault. -/
def Fault.message : Fault → String
  | year n => "year " ++ toString n ++ " is out of range"
  | month => "month must be in 1..12"
  | day => "day is out of range for month"
  | hour => "hour must be in 0..23"
  | minute => "minute must be in 0..59"
  | second => "second must be in 0..59"
  | offset => "offset must be less than a day"

/-- Whether February has a twenty-ninth day. -/
def isLeap (year : Nat) : Bool :=
  year % 4 = 0 && (year % 100 != 0 || year % 400 = 0)

/-- The number of days of a month. -/
def daysIn (year month : Nat) : Nat :=
  if month = 2 then (if isLeap year then 29 else 28)
  else if [4, 6, 9, 11].contains month then 30
  else 31

/-- What keeps a time from being one. -/
def timeFault? (t : TimeOfDay) : Option Fault :=
  if 24 ≤ t.hour then some .hour
  else if 60 ≤ t.minute then some .minute
  else if 60 ≤ t.second then some .second
  else none

/-- The first thing that keeps numbers from being a moment. -/
def fault? (m : Moment) : Option Fault :=
  if 24 * 60 ≤ m.offset then some .offset
  else if m.year = 0 then some (.year m.year)
  else if m.month < 1 ∨ 12 < m.month then some .month
  else if m.day < 1 ∨ daysIn m.year m.month < m.day then some .day
  else m.time.bind timeFault?

end Moment

end ModuleAssembly.Yaml
