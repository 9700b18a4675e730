import CfmlTidy.Json.Reader

/-!
# Dates and times of TOML

A moment is a date, a time of day, or both with or without the offset of a time zone. Reading takes
text from the front and returns what follows; writing gives each moment one text.
-/

namespace CfmlTidy.Toml

open CfmlTidy.Json (isDigit hexValue?)

/-- The number of digits in a base. -/
def natOf (base : Nat) (digits : List Char) : Nat :=
  digits.foldl (fun sum c => sum * base + (hexValue? c).getD 0) 0

/-- A fixed number of decimal digits and what follows them. -/
def takeDigits? (count : Nat) (text : List Char) : Option (Nat × List Char) :=
  let digits := text.take count
  if digits.length = count && digits.all isDigit then some (natOf 10 digits, text.drop count)
  else none

/-- One given character and what follows it. -/
def expect? (c : Char) : List Char → Option (List Char)
  | [] => none
  | other :: rest => if other = c then some rest else none

/-- A number in at least `width` digits. -/
def zeroPadded (width value : Nat) : List Char :=
  let digits := Nat.toDigits 10 value
  List.replicate (width - digits.length) '0' ++ digits

/-- A day of the calendar. -/
structure Date where
  /-- The year, of four digits. -/
  year : Nat
  /-- The month, from one. -/
  month : Nat
  /-- The day of the month, from one. -/
  day : Nat
deriving DecidableEq

/-- A time of day. -/
structure Time where
  /-- The hour, up to 23. -/
  hour : Nat
  /-- The minute, up to 59. -/
  minute : Nat
  /-- The second, up to 60 for a leap second. -/
  second : Nat
  /-- The fraction of the second, in billionths. -/
  nanosecond : Nat
deriving DecidableEq

/-- The offset of a time zone. -/
inductive Offset where
  /-- Universal time. -/
  | universal
  /-- Minutes ahead of universal time. -/
  | ahead (minutes : Int)
deriving DecidableEq

/-- What a date without quotes stands for. -/
inductive Moment where
  /-- A day. -/
  | day (date : Date)
  /-- A time of any day. -/
  | clock (time : Time)
  /-- A time of a day, in a time zone if one is given. -/
  | instant (date : Date) (time : Time) (offset : Option Offset)
deriving DecidableEq

/-- Days of a month. -/
def daysIn (year month : Nat) : Nat :=
  if month = 2 then
    if year % 4 = 0 && (year % 100 != 0 || year % 400 = 0) then 29 else 28
  else if month = 4 || month = 6 || month = 9 || month = 11 then 30
  else 31

/-- Read a date. Its day is one of the month. -/
def Date.read? (text : List Char) : Option (Date × List Char) := do
  let (year, rest) ← takeDigits? 4 text
  let rest ← expect? '-' rest
  let (month, rest) ← takeDigits? 2 rest
  let rest ← expect? '-' rest
  let (day, rest) ← takeDigits? 2 rest
  if 1 ≤ month && month ≤ 12 && 1 ≤ day && day ≤ daysIn year month then
    some (⟨year, month, day⟩, rest)
  else none

/-- The text of a date. -/
def Date.write (date : Date) : List Char :=
  zeroPadded 4 date.year ++ '-' :: zeroPadded 2 date.month ++ '-' :: zeroPadded 2 date.day

/-- Billionths of a second that the digits after the point give; digits past the ninth are cut. -/
def billionths (digits : List Char) : Nat :=
  let kept := digits.take 9
  natOf 10 (kept ++ List.replicate (9 - kept.length) '0')

/-- Read the fraction of a second. Without a point it is zero. -/
def fraction? : List Char → Option (Nat × List Char)
  | '.' :: rest =>
    let digits := rest.takeWhile isDigit
    if digits.isEmpty then none else some (billionths digits, rest.dropWhile isDigit)
  | rest => some (0, rest)

/-- Read a time of day. Seconds that are missing are zero. -/
def Time.read? (text : List Char) : Option (Time × List Char) := do
  let (hour, rest) ← takeDigits? 2 text
  let rest ← expect? ':' rest
  let (minute, rest) ← takeDigits? 2 rest
  if 23 < hour || 59 < minute then none
  match rest with
  | ':' :: rest => do
    let (second, rest) ← takeDigits? 2 rest
    if 60 < second then none
    let (nanosecond, rest) ← fraction? rest
    some (⟨hour, minute, second, nanosecond⟩, rest)
  | rest => some (⟨hour, minute, 0, 0⟩, rest)

/-- The text of a time of day. Seconds are always written, a fraction only if it is not zero, and
without zeros at its end. -/
def Time.write (time : Time) : List Char :=
  let whole :=
    zeroPadded 2 time.hour ++ ':' :: zeroPadded 2 time.minute ++ ':' :: zeroPadded 2 time.second
  if time.nanosecond = 0 then whole
  else whole ++ '.' :: ((zeroPadded 9 time.nanosecond).reverse.dropWhile (· == '0')).reverse

/-- Read an offset that ends the text. Without one there is no time zone. -/
def Offset.read? : List Char → Option (Option Offset)
  | [] => some none
  | ['Z'] | ['z'] => some (some .universal)
  | sign :: rest =>
    if sign = '+' || sign = '-' then do
      let (hour, rest) ← takeDigits? 2 rest
      let rest ← expect? ':' rest
      let (minute, rest) ← takeDigits? 2 rest
      if !rest.isEmpty || 23 < hour || 59 < minute then none
      let minutes : Int := hour * 60 + minute
      some (some (.ahead (if sign = '-' then -minutes else minutes)))
    else none

/-- The text of an offset. An offset of zero minutes has a plus sign. -/
def Offset.write : Offset → List Char
  | .universal => ['Z']
  | .ahead minutes =>
    let distance := minutes.natAbs
    (if minutes < 0 then '-' else '+') ::
      zeroPadded 2 (distance / 60) ++ ':' :: zeroPadded 2 (distance % 60)

/-- Read a moment that is the whole text. -/
def Moment.read? (text : List Char) : Option Moment :=
  match Date.read? text with
  | some (date, []) => some (.day date)
  | some (date, separator :: rest) =>
    if separator = 'T' || separator = 't' || separator = ' ' then do
      let (time, rest) ← Time.read? rest
      let offset ← Offset.read? rest
      some (.instant date time offset)
    else none
  | none =>
    match Time.read? text with
    | some (time, []) => some (.clock time)
    | _ => none

/-- The text of a moment. -/
def Moment.write : Moment → List Char
  | .day date => date.write
  | .clock time => time.write
  | .instant date time none => date.write ++ 'T' :: time.write
  | .instant date time (some offset) => date.write ++ 'T' :: time.write ++ offset.write

/-- The field that holds the text of a moment. -/
def dateField : String := "$__toml_private_datetime"

/-- A moment as a JSON value: an object of one field with its text. -/
def Moment.toJson (moment : Moment) : Json :=
  .obj [(dateField, .str (String.ofList moment.write))]

end CfmlTidy.Toml
