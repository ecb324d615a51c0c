import BlockScript.Text.Blank
import BlockScript.Text.Numeral

/-!
# Times and run identifiers

Both are kept as the one text that stands for them on the wire: a time in UTC, with a fraction of
three, six or nine digits if it has one, and an identifier of 128 bits in lower-case groups. Other
spellings are brought to that form when they are read. A time may be written with blanks around its
numbers, without leading zeros and at any distance from UTC below one day.
-/
namespace BlockScript
set_option autoImplicit false

namespace Calendar

/-- Days from the first of March of year zero to a date. -/
def dayNumber (year : Int) (month day : Nat) : Int :=
  let y := if month ≤ 2 then year - 1 else year
  let era := y.fdiv 400
  let yearOfEra := y - era * 400
  let m := if month ≤ 2 then month + 9 else month - 3
  let dayOfYear : Int := ((153 * m + 2) / 5 + day - 1 : Nat)
  era * 146097 + yearOfEra * 365 + yearOfEra / 4 - yearOfEra / 100 + dayOfYear

/-- The date of a day number. -/
def ofDayNumber (n : Int) : Int × Nat × Nat :=
  let era := n.fdiv 146097
  let dayOfEra := (n - era * 146097).toNat
  let yearOfEra := (dayOfEra - dayOfEra / 1460 + dayOfEra / 36524 - dayOfEra / 146096) / 365
  let dayOfYear := dayOfEra - (365 * yearOfEra + yearOfEra / 4 - yearOfEra / 100)
  let m := (5 * dayOfYear + 2) / 153
  let day := dayOfYear - (153 * m + 2) / 5 + 1
  let month := if m < 10 then m + 3 else m - 9
  let year := (yearOfEra : Int) + era * 400
  (if month ≤ 2 then year + 1 else year, month, day)

def isLeap (year : Int) : Bool := year % 4 = 0 && (year % 100 ≠ 0 || year % 400 = 0)

def daysIn (year : Int) (month : Nat) : Nat :=
  if month = 2 then (if isLeap year then 29 else 28)
  else if month = 4 ∨ month = 6 ∨ month = 9 ∨ month = 11 then 30
  else 31

def firstYear : Int := -262143

def lastYear : Int := 262142

def hasYear (year : Int) : Bool := firstYear ≤ year && year ≤ lastYear

end Calendar

namespace Timestamp

def skipBlanks (cs : List Char) : List Char := cs.dropWhile Text.isBlank

/-- A whole number of one to `width` digits. -/
def digits? (width : Nat) (cs : List Char) : Option (Nat × List Char) :=
  let front := (cs.take width).takeWhile Text.isDigit
  if front.isEmpty then none else some (Text.natOfDigits front, cs.drop front.length)

/-- A year has at most four digits, or a sign and any number of them. -/
def year? (cs : List Char) : Option (Int × List Char) :=
  match skipBlanks cs with
  | '+' :: rest => (digits? rest.length rest).map fun (n, rest) => (n, rest)
  | '-' :: rest => (digits? rest.length rest).map fun (n, rest) => (-n, rest)
  | rest => (digits? 4 rest).map fun (n, rest) => (n, rest)

/-- A month, a day, an hour, a minute or a second. -/
def part? (cs : List Char) : Option (Nat × List Char) := digits? 2 (skipBlanks cs)

/-- The rest of a text after a mark that may have blanks in front. -/
def mark? (mark : Char) (cs : List Char) : Option (List Char) :=
  [mark].isPrefixOf? (skipBlanks cs)

/-- A letter or one blank parts the date from the time of day. -/
def divider? : List Char → Option (List Char)
  | c :: rest => if c = 'T' ∨ c = 't' ∨ c = ' ' then some rest else none
  | [] => none

/-- Nanoseconds of a fraction; digits after the ninth do not count. -/
def fraction? : List Char → Option (Nat × List Char)
  | '.' :: cs =>
    let front := cs.takeWhile Text.isDigit
    if front.isEmpty then none
    else
      let nine := (front ++ List.replicate 9 '0').take 9
      some (Text.natOfDigits nine, cs.dropWhile Text.isDigit)
  | cs => some (0, cs)

def twoDigits? : List Char → Option (Nat × List Char)
  | a :: b :: rest =>
    if Text.isDigit a && Text.isDigit b then some (Text.natOfDigits [a, b], rest) else none
  | _ => none

/-- Hours and minutes, with any colons and blanks between them. -/
def distance? (cs : List Char) : Option (Nat × List Char) := do
  let (hours, rest) ← twoDigits? cs
  let (minutes, rest) ← twoDigits? (rest.dropWhile fun c => c = ':' || Text.isBlank c)
  if hours < 24 ∧ minutes < 60 then some (hours * 60 + minutes, rest) else none

/-- Minutes east of UTC. West of it the hyphen or the minus sign stands in front. -/
def offset? (cs : List Char) : Option (Int × List Char) :=
  if (cs.take 3).map Char.toUpper = ['U', 'T', 'C'] then some (0, cs.drop 3)
  else
    match cs with
    | [] => none
    | c :: rest =>
      if c = 'Z' ∨ c = 'z' then some (0, rest)
      else if c = '+' then (distance? rest).map fun (n, rest) => (n, rest)
      else if c = '-' ∨ c = '\u2212' then (distance? rest).map fun (n, rest) => (-n, rest)
      else none

def pad (width n : Nat) : String :=
  let digits := Nat.toDigits 10 n
  String.ofList (List.replicate (width - digits.length) '0' ++ digits)

def renderFraction (nanos : Nat) : String :=
  if nanos = 0 then ""
  else if nanos % 1000000 = 0 then "." ++ pad 3 (nanos / 1000000)
  else if nanos % 1000 = 0 then "." ++ pad 6 (nanos / 1000)
  else "." ++ pad 9 nanos

def renderYear (year : Int) : String :=
  if year < 0 then "-" ++ pad 4 year.natAbs
  else if year > 9999 then "+" ++ pad 4 year.natAbs
  else pad 4 year.natAbs

/-- A time given by the minutes since the first of March of year zero, in UTC. -/
def render (minutes : Int) (seconds nanos : Nat) : String :=
  let (year, month, day) := Calendar.ofDayNumber (minutes.fdiv 1440)
  let ofDay := (minutes.fmod 1440).toNat
  renderYear year ++ "-" ++ pad 2 month ++ "-" ++ pad 2 day ++ "T" ++ pad 2 (ofDay / 60) ++ ":" ++
    pad 2 (ofDay % 60) ++ ":" ++ pad 2 seconds ++ renderFraction nanos ++ "Z"

/-- The canonical text of a time. -/
def normalize? (text : String) : Option String := do
  let (year, rest) ← year? text.toList
  let (month, rest) ← part? (← mark? '-' rest)
  let (day, rest) ← part? (← mark? '-' rest)
  let (hour, rest) ← part? (← divider? rest)
  let (minute, rest) ← part? (← mark? ':' rest)
  let (second, rest) ← part? (← mark? ':' rest)
  let (nanos, rest) ← fraction? rest
  let (offset, rest) ← offset? (skipBlanks rest)
  if (skipBlanks rest).isEmpty ∧ Calendar.hasYear year ∧ 1 ≤ month ∧ month ≤ 12 ∧ 1 ≤ day ∧
      day ≤ Calendar.daysIn year month ∧ hour < 24 ∧ minute < 60 ∧ second ≤ 60 then
    let minutes := Calendar.dayNumber year month day * 1440 + hour * 60 + minute - offset
    if Calendar.hasYear (Calendar.ofDayNumber (minutes.fdiv 1440)).1 then
      some (render minutes second nanos)
    else none
  else none

end Timestamp

/-- A point in time, by its canonical text. -/
structure Timestamp where
  text : String
  canonical : Timestamp.normalize? text = some text
deriving DecidableEq

namespace Timestamp

def ofText? (text : String) : Option Timestamp :=
  match normalize? text with
  | none => none
  | some normal => if h : normalize? normal = some normal then some ⟨normal, h⟩ else none

theorem ofText?_text (t : Timestamp) : ofText? t.text = some t := by
  unfold ofText?
  rw [t.canonical]
  exact dif_pos t.canonical

/-- The second that computers count from. -/
def epoch : Timestamp := ⟨"1970-01-01T00:00:00Z", by decide +kernel⟩

instance : Inhabited Timestamp := ⟨epoch⟩

end Timestamp

namespace RunId

def isHex (c : Char) : Bool :=
  Text.isDigit c || ('a' ≤ c && c ≤ 'f') || ('A' ≤ c && c ≤ 'F')

/-- Lengths of the groups between hyphens. -/
def groups : List Nat := [8, 4, 4, 4, 12]

/-- Cuts a text into groups of the given lengths, with `mark` in front of all but the first. -/
def cut (mark : List Char) : List Nat → List Char → Option (List (List Char))
  | [], cs => if cs.isEmpty then some [] else none
  | n :: rest, cs => do
    let front := cs.take n
    if front.length = n ∧ front.all isHex then
      match rest with
      | [] => if (cs.drop n).isEmpty then some [front] else none
      | _ => return front :: (← cut mark rest (← mark.isPrefixOf? (cs.drop n)))
    else none

/-- Groups with hyphens, or digits alone. -/
def plain? (cs : List Char) : Option (List (List Char)) :=
  (cut ['-'] groups cs).or (cut [] groups cs)

def opening : List Char := "urn:uuid:".toList

/-- The digits may stand alone or in groups, in braces or after the name of their scheme. -/
def normalize? (text : String) : Option String := do
  let cs := text.toList
  let bare := match cs with
    | '\x7b' :: rest =>
      if rest.getLast? = some '\x7d' then cut ['-'] groups rest.dropLast else none
    | _ =>
      match opening.isPrefixOf? cs with
      | some rest => cut ['-'] groups rest
      | none => plain? cs
  let parts ← bare
  return String.intercalate "-" (parts.map fun part => String.ofList (part.map Char.toLower))

end RunId

/-- The identifier of a run, by its canonical text. -/
structure RunId where
  text : String
  canonical : RunId.normalize? text = some text
deriving DecidableEq

namespace RunId

def ofText? (text : String) : Option RunId :=
  match normalize? text with
  | none => none
  | some normal => if h : normalize? normal = some normal then some ⟨normal, h⟩ else none

theorem ofText?_text (id : RunId) : ofText? id.text = some id := by
  unfold ofText?
  rw [id.canonical]
  exact dif_pos id.canonical

/-- The identifier that stands for no run. -/
def zero : RunId := ⟨"00000000-0000-0000-0000-000000000000", by decide +kernel⟩

instance : Inhabited RunId := ⟨zero⟩

end RunId

end BlockScript
