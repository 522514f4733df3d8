import CommandRoutes.Document.JsonReader

/-!
# Words in TOML

Truth values, numbers, dates and times are written without quotes. They are
kept as words, but only those that denote something are read: an integer lies
between -2^127 and 2^128 - 1, a float rounds to a finite number of double
precision, and a date is one of the calendar.
-/
namespace CommandRoutes.Document.TomlReader

open JsonReader (hexDigit? hexNumber?)

/-! ## Numbers -/

/-- Digits of a base with single underscores between them. -/
def isDigits (isDigit : Char → Bool) : List Char → Bool
  | [] => false
  | [c] => isDigit c
  | c :: '_' :: rest => isDigit c && isDigits isDigit rest
  | c :: rest => isDigit c && isDigits isDigit rest

/-- The number that digits below `base` write, with or without underscores. -/
def number (base : Nat) (cs : List Char) : Nat :=
  cs.foldl (fun n c => if c = '_' then n else base * n + (hexDigit? c).getD 0) 0

def isNegative (cs : List Char) : Bool := cs.head? = some '-'

def unsigned (cs : List Char) : List Char :=
  match cs with
  | '+' :: rest => rest
  | '-' :: rest => rest
  | _ => cs

/-- Decimal digits without a leading zero. -/
def isWhole (cs : List Char) : Bool :=
  isDigits Char.isDigit cs && (cs.head? ≠ some '0' || cs.length = 1)

def isInteger (cs : List Char) : Bool :=
  match cs with
  | '0' :: 'x' :: rest => isDigits (fun c => (hexDigit? c).isSome) rest && number 16 rest < Nat.pow 2 128
  | '0' :: 'o' :: rest => isDigits (fun c => '0' ≤ c && c ≤ '7') rest && number 8 rest < Nat.pow 2 128
  | '0' :: 'b' :: rest => isDigits (fun c => c = '0' || c = '1') rest && number 2 rest < Nat.pow 2 128
  | _ =>
    isWhole (unsigned cs) &&
      if isNegative cs then number 10 (unsigned cs) ≤ Nat.pow 2 127
      else number 10 (unsigned cs) < Nat.pow 2 128

/-- The least number that double precision rounds to infinity. -/
def overflow : Nat := Nat.pow 2 1024 - Nat.pow 2 970

/-- Whether `digits`, of which the last `places` stand behind the point, times a power of ten
round to a finite number. -/
def isFinite (digits : List Char) (places : Nat) (exponent : Int) : Bool :=
  let digits := digits.dropWhile (· = '0')
  let size : Int := digits.length - places + exponent
  digits = [] || size ≤ 308 ||
    (size = 309 &&
      if places ≤ exponent then number 10 digits * Nat.pow 10 (exponent - places).toNat < overflow
      else number 10 digits < overflow * Nat.pow 10 (places - exponent).toNat)

def isFloat (cs : List Char) : Bool :=
  let body := unsigned cs
  let mantissa := body.takeWhile fun c => c ≠ 'e' && c ≠ 'E'
  let power := (body.dropWhile fun c => c ≠ 'e' && c ≠ 'E').drop 1
  let whole := mantissa.takeWhile (· ≠ '.')
  let fraction := (mantissa.dropWhile (· ≠ '.')).drop 1
  let places := (fraction.filter (· ≠ '_')).length
  let exponent : Int :=
    if isNegative power then -(number 10 (unsigned power)) else number 10 (unsigned power)
  body = ['i', 'n', 'f'] || body = ['n', 'a', 'n'] ||
    (isWhole whole && (mantissa ≠ whole || body ≠ mantissa) &&
      (mantissa = whole || isDigits Char.isDigit fraction) &&
      (body = mantissa || isDigits Char.isDigit (unsigned power)) &&
      isFinite ((whole ++ fraction).filter (· ≠ '_')) places exponent)

/-! ## Dates and times -/

/-- The number written by digits, all of them decimal. -/
def count? (cs : List Char) : Option Nat :=
  if cs.all Char.isDigit then some (number 10 cs) else none

def isLeapYear (year : Nat) : Bool := year % 4 = 0 && (year % 100 ≠ 0 || year % 400 = 0)

def daysOfMonth (year month : Nat) : Nat :=
  if month = 2 then (if isLeapYear year then 29 else 28)
  else if [4, 6, 9, 11].contains month then 30
  else 31

def isDate (cs : List Char) : Bool :=
  match cs with
  | [y1, y2, y3, y4, '-', m1, m2, '-', d1, d2] =>
    match count? [y1, y2, y3, y4], count? [m1, m2], count? [d1, d2] with
    | some year, some month, some day =>
      1 ≤ month && month ≤ 12 && 1 ≤ day && day ≤ daysOfMonth year month
    | _, _, _ => false
  | _ => false

/-- Hours and minutes, with or without seconds and a fraction. -/
def isTime (cs : List Char) : Bool :=
  match cs with
  | h1 :: h2 :: ':' :: m1 :: m2 :: rest =>
    match count? [h1, h2], count? [m1, m2] with
    | some h, some m => h < 24 && m < 60 &&
      match rest with
      | [] => true
      | ':' :: s1 :: s2 :: fraction =>
        (match count? [s1, s2] with
        | some s => s ≤ 60
        | none => false) &&
        match fraction with
        | [] => true
        | '.' :: ds => ds ≠ [] && ds.all Char.isDigit
        | _ => false
      | _ => false
    | _, _ => false
  | _ => false

/-- A time with or without an offset from universal time. -/
def isZonedTime (cs : List Char) : Bool :=
  let time := cs.takeWhile fun c => c.isDigit || c = ':' || c = '.'
  let zone := cs.drop time.length
  isTime time &&
    match zone with
    | [] | ['Z'] | ['z'] => true
    | '+' :: offset | '-' :: offset => offset.length = 5 && isTime offset
    | _ => false

def isDateTime (cs : List Char) : Bool :=
  isDate (cs.take 10) &&
    match cs.drop 10 with
    | [] => true
    | mark :: time => (mark = 'T' || mark = 't' || mark = ' ') && isZonedTime time

/-! ## Words -/

def isWord (cs : List Char) : Bool :=
  cs = "true".toList || cs = "false".toList || isInteger cs || isFloat cs || isDateTime cs ||
    isTime cs

def isWordPart (c : Char) : Bool :=
  c.isAlphanum || c = '+' || c = '-' || c = '.' || c = '_' || c = ':'

/-- A value without quotes or brackets. A date and the time after it are one word. -/
def word? (cs : List Char) : Option (Document × List Char) :=
  let first := cs.takeWhile isWordPart
  let left := cs.dropWhile isWordPart
  let (text, left) := match left with
    | ' ' :: d :: rest =>
      if isDate first && d.isDigit then
        (first ++ ' ' :: (d :: rest).takeWhile isWordPart, (d :: rest).dropWhile isWordPart)
      else (first, left)
    | _ => (first, left)
  if isWord text then some (.word (String.ofList text), left) else none

end CommandRoutes.Document.TomlReader
