import KeyManagement.Text.Blank
import KeyManagement.Time.Timestamp

/-! # Reading timestamps

A date, a time of day and a zone, with few demands on the spelling: numbers may lack their
leading zeros and have blanks in front, and an offset from universal time may have colons
and blanks between its hours and minutes. The result is in universal time.
-/

namespace KeyManagement.Timestamp

open Text

/-- Drops one expected character. -/
def expect (c : Char) : List Char → Option (List Char)
  | d :: rest => if d = c then some rest else none
  | [] => none

/-- One or more digits, as many as the width allows. -/
def number (width : Nat) (s : List Char) : Option (Nat × List Char) :=
  let digits := (s.take width).takeWhile Char.isDigit
  if digits.isEmpty then none else some (Decimal.value digits, s.drop digits.length)

/-- A number of one or two digits, after blanks. -/
def shortNumber (s : List Char) : Option (Nat × List Char) := number 2 (skipBlanks s)

/-- Up to four digits, or a sign and any number of digits. -/
def signedYear (s : List Char) : Option (Int × List Char) :=
  match skipBlanks s with
  | '-' :: rest => (number rest.length rest).map fun (n, rest) => (-(n : Int), rest)
  | '+' :: rest => (number rest.length rest).map fun (n, rest) => ((n : Int), rest)
  | rest => (number 4 rest).map fun (n, rest) => ((n : Int), rest)

def readDate (s : List Char) : Option (Date × List Char) := do
  let (year, s) ← signedYear s
  let (month, s) ← shortNumber (← expect '-' (skipBlanks s))
  let (day, s) ← shortNumber (← expect '-' (skipBlanks s))
  return (← Date.ofParts? year month day, s)

/-- A fraction counts nanoseconds; digits after the ninth are ignored. -/
def readFraction (s : List Char) : Option (Nat × List Char) :=
  match s with
  | '.' :: rest => do
    let (n, rest') ← number 9 rest
    return (n * Decimal.power (9 - (rest.length - rest'.length)), rest'.dropWhile Char.isDigit)
  | _ => some (0, s)

def readTime (s : List Char) : Option (TimeOfDay × List Char) := do
  let (hour, s) ← shortNumber s
  let (minute, s) ← shortNumber (← expect ':' (skipBlanks s))
  let (second, s) ← shortNumber (← expect ':' (skipBlanks s))
  let (nano, s) ← readFraction s
  return (← TimeOfDay.ofParts? hour minute second nano, s)

/-- Exactly two digits. -/
def twoDigits : List Char → Option (Nat × List Char)
  | a :: b :: rest =>
    if a.isDigit && b.isDigit then some (Decimal.value [a, b], rest) else none
  | _ => none

/-- Minutes east of universal time, less than a day. -/
def readOffset (s : List Char) : Option (Int × List Char) := do
  let (sign, s) ← match s with
    | '+' :: rest => some ((1 : Int), rest)
    | '-' :: rest => some (-1, rest)
    | '\u2212' :: rest => some (-1, rest)
    | _ => none
  let (hours, s) ← twoDigits s
  let (minutes, s) ← twoDigits (s.dropWhile fun c => c == ':' || isBlank c)
  if minutes < 60 ∧ hours < 24 then some (sign * (hours * 60 + minutes), s) else none

def readZone (s : List Char) : Option (Int × List Char) :=
  match s with
  | 'z' :: rest => some (0, rest)
  | 'Z' :: rest => some (0, rest)
  | u :: t :: c :: rest =>
    if [u.toLower, t.toLower, c.toLower] = ['u', 't', 'c'] then some (0, rest) else readOffset s
  | _ => readOffset s

/-- The universal time of a local time that is the given minutes ahead. -/
def ofLocal? (date : Date) (time : TimeOfDay) (ahead : Int) : Option Timestamp := do
  let minutes := (time.hour * 60 + time.minute : Int) - ahead
  let date ←
    if minutes < 0 then date.previous? else if 1440 ≤ minutes then date.next? else some date
  let minutes := (minutes % 1440).toNat
  return ⟨date, ← TimeOfDay.ofParts? (minutes / 60) (minutes % 60) time.second time.nano⟩

def parse? (text : String) : Option Timestamp := do
  let (date, s) ← readDate text.toList
  let s ← match s with
    | 'T' :: rest | 't' :: rest | ' ' :: rest => some rest
    | _ => none
  let (time, s) ← readTime s
  let (ahead, s) ← readZone (skipBlanks s)
  if (skipBlanks s).isEmpty then ofLocal? date time ahead else none

end KeyManagement.Timestamp
