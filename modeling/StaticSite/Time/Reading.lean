import StaticSite.Text.Blank
import StaticSite.Time.Calendar
/-!
# StaticSite.Time.Reading

Reading a date as authors write it, white space around it left out, in one of three forms:

* a full time with an offset from UTC, all numbers with all their digits (`readFull?`);
* a date and a time, joined by `T` and taken as UTC (`readLocal?`);
* a date, taken as its midnight in UTC (`readDay?`).

The last two are lenient: numbers may have fewer digits and white space in front, and a year with a
sign may have any number of digits.
-/

set_option autoImplicit false

namespace StaticSite.Time

/-- The number that starts a text, and the text after it: at least one digit and at most `most`. -/
def number? (most : Nat) (s : List Char) : Option (Nat × List Char) :=
  let digits := (s.take most).takeWhile Char.isDigit
  if digits.isEmpty then none
  else
    let n := digits.foldl (fun n c => n * 10 + (c.toNat - '0'.toNat)) 0
    if n < Nat.pow 2 63 then some (n, s.drop digits.length) else none

/-- The number of exactly `count` digits that starts a text, and the text after it. -/
def fullNumber? (count : Nat) (s : List Char) : Option (Nat × List Char) := do
  let (n, rest) ← number? count s
  if rest.length + count = s.length then some (n, rest) else none

/-- The text after the character `c`, if it starts with it. -/
def after? (c : Char) : List Char → Option (List Char)
  | d :: rest => if c = d then some rest else none
  | [] => none

/-- Days from the start of 1970 to a day, if there is such a day. -/
def day? (year : Int) (month day : Nat) : Option Int :=
  if -262143 ≤ year ∧ year ≤ 262142 ∧ 1 ≤ month ∧ month ≤ 12 ∧ 1 ≤ day
      ∧ day ≤ Calendar.daysInMonth year month then
    some (Calendar.dayNumber year month day)
  else none

/-- The point in time of a day at a time of day. A sixtieth second is a leap second. -/
def instant? (days : Int) (hour minute second nanos : Nat) : Option Instant :=
  if hour ≤ 23 ∧ minute ≤ 59 ∧ second ≤ 60 then
    let start := days * 86400 + hour * 3600 + minute * 60
    if second = 60 then some ⟨start + 59, nanos + 1000000000⟩
    else some ⟨start + second, nanos⟩
  else none

/-- Nanoseconds, after a point: the digits after the ninth do not count. -/
def fraction? (s : List Char) : Option (Nat × List Char) :=
  match s with
  | '.' :: rest => do
    let (n, after) ← number? 9 rest
    let count := rest.length - after.length
    some (n * Nat.pow 10 (9 - count), after.dropWhile Char.isDigit)
  | _ => some (0, s)

/-- The offset from UTC in seconds, which ends the text: `Z`, or a sign, hours, a colon and
minutes. -/
def offset? (s : List Char) : Option Int :=
  match s with
  | [] => none
  | c :: rest =>
    if c = 'Z' ∨ c = 'z' then (if rest.isEmpty then some 0 else none)
    else if c = '+' ∨ c = '-' ∨ c = '\u2212' then do
      let (hours, rest) ← fullNumber? 2 rest
      let rest ← after? ':' rest
      let (minutes, rest) ← fullNumber? 2 rest
      if rest.isEmpty ∧ hours ≤ 23 ∧ minutes ≤ 59 then
        let seconds : Int := hours * 3600 + minutes * 60
        some (if c = '+' then seconds else -seconds)
      else none
    else none

/-- A full time: a date and a time of day, between them `T` or a blank, and an offset. -/
def readFull? (s : List Char) : Option Instant := do
  let (year, s) ← fullNumber? 4 s
  let s ← after? '-' s
  let (month, s) ← fullNumber? 2 s
  let s ← after? '-' s
  let (day, s) ← fullNumber? 2 s
  let s ← match s with
    | c :: rest => if c = 'T' ∨ c = 't' ∨ c = ' ' then some rest else none
    | [] => none
  let (hour, s) ← fullNumber? 2 s
  let s ← after? ':' s
  let (minute, s) ← fullNumber? 2 s
  let s ← after? ':' s
  let (second, s) ← fullNumber? 2 s
  let (nanos, s) ← fraction? s
  let offset ← offset? s
  let days ← day? year month day
  let t ← instant? days hour minute second nanos
  some { t with seconds := t.seconds - offset }

/-- A number of at most two digits after optional white space. -/
def short? (s : List Char) : Option (Nat × List Char) := number? 2 (Text.trimStart s)

/-- A year after optional white space: four digits at most unless it has a sign. -/
def year? (s : List Char) : Option (Int × List Char) :=
  match Text.trimStart s with
  | '-' :: rest => (number? rest.length rest).map fun (n, rest) => (-(n : Int), rest)
  | '+' :: rest => (number? rest.length rest).map fun (n, rest) => ((n : Int), rest)
  | s => (number? 4 s).map fun (n, rest) => ((n : Int), rest)

/-- A date: the number of its day, and the text after it. -/
def date? (s : List Char) : Option (Int × List Char) := do
  let (year, s) ← year? s
  let s ← after? '-' s
  let (month, s) ← short? s
  let s ← after? '-' s
  let (day, s) ← short? s
  let days ← day? year month day
  some (days, s)

/-- A date and a time of day in UTC. -/
def readLocal? (s : List Char) : Option Instant := do
  let (days, s) ← date? s
  let s ← after? 'T' s
  let (hour, s) ← short? s
  let s ← after? ':' s
  let (minute, s) ← short? s
  let s ← after? ':' s
  let (second, s) ← short? s
  if s.isEmpty then instant? days hour minute second 0 else none

/-- A date: its midnight in UTC. -/
def readDay? (s : List Char) : Option Instant := do
  let (days, s) ← date? s
  if s.isEmpty then some ⟨days * 86400, 0⟩ else none

/-- The point in time that a text stands for, if it has one of the three forms. -/
def read? (s : List Char) : Option Instant :=
  let s := Text.trim s
  (readFull? s).or ((readLocal? s).or (readDay? s))

end StaticSite.Time
