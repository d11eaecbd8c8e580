import LedgerBridge.Document
import LedgerBridge.Toml.Text

/-! Numbers, dates and times. Of numbers only integers that are not negative come to be used; the
others and dates are checked for their form and range. -/
namespace LedgerBridge.Toml

open Scan

def isDigitOf (base : Nat) (c : Char) : Bool := (Hex.digitValue? c).any (· < base)

/-- Digits, with single underscores between them. -/
def digits (base : Nat) : Scan (List Char) := do
  let first ← one (isDigitOf base)
  let rest ← many (option (char '_') *> one (isDigitOf base))
  return first :: rest

def numeral (base : Nat) (cs : List Char) : Nat :=
  cs.foldl (fun n c => base * n + (Hex.digitValue? c).getD 0) 0

def sign : Scan Bool := (char '-' *> pure true) <|> (option (char '+') *> pure false)

/-- Without zeros in front. -/
def decimalDigits : Scan (List Char) := do
  if (← peek?) = some '0' then
    char '0'
    return ['0']
  else digits 10

/-- Integers have 64 bits and a sign. -/
def integerLimit : Nat := 0x8000000000000000

def integer (negative : Bool) (n : Nat) : Scan Document :=
  if negative then
    if integerLimit < n then failure else return if n = 0 then .natural 0 else .foreign
  else if integerLimit ≤ n then failure
  else return .natural n

def basedInteger (mark : Char) (base : Nat) : Scan Document := do
  word ['0', mark]
  integer false (numeral base (← digits base))

def decimalInteger : Scan Document := do
  let negative ← sign
  integer negative (numeral 10 (← decimalDigits))

/-- Whether `n * 10 ^ exponent` is rounded to a float of 64 bits that is not infinite: it is less
than halfway from the largest float to the next power of two. -/
def isFinite (n : Nat) (exponent : Int) : Bool :=
  let places := (Nat.toDigits 10 n).length + exponent
  let bound := Nat.pow 2 1024 - Nat.pow 2 970
  n = 0 || places < 300 ||
    (places ≤ 310 &&
      if exponent < 0 then n < bound * Nat.pow 10 exponent.natAbs
      else n * Nat.pow 10 exponent.natAbs < bound)

def exponent : Scan Int := do
  discard (one fun c => c = 'e' || c = 'E')
  let negative ← sign
  let n := numeral 10 (← digits 10)
  return if negative then -n else n

/-- A number with a fraction or an exponent. One that is too large is refused unless it is
negative. -/
def float : Scan Document := do
  let negative ← sign
  let whole ← decimalDigits
  let fraction ← option (char '.' *> digits 10)
  let power ← option exponent
  if fraction.isNone && power.isNone then failure
  let decimals := fraction.getD []
  if negative || isFinite (numeral 10 (whole ++ decimals)) (power.getD 0 - decimals.length) then
    return .foreign
  else failure

def specialFloat : Scan Document := do
  discard sign
  word ['i', 'n', 'f'] <|> word ['n', 'a', 'n']
  return .foreign

def twoDigits (least most : Nat) : Scan Nat := do
  let n := numeral 10 [← one Char.isDigit, ← one Char.isDigit]
  if least ≤ n && n ≤ most then return n else failure

def daysInMonth (year month : Nat) : Nat :=
  if month = 2 then
    if year % 4 = 0 && (year % 100 ≠ 0 || year % 400 = 0) then 29 else 28
  else if month = 4 || month = 6 || month = 9 || month = 11 then 30
  else 31

def date : Scan Unit := do
  let year := numeral 10 [← one Char.isDigit, ← one Char.isDigit, ← one Char.isDigit,
    ← one Char.isDigit]
  char '-'
  let month ← twoDigits 1 12
  char '-'
  discard (twoDigits 1 (daysInMonth year month))

def time : Scan Unit := do
  discard (twoDigits 0 23)
  char ':'
  discard (twoDigits 0 59)
  char ':'
  discard (twoDigits 0 60)
  discard (option (char '.' *> span1 Char.isDigit))

def timeOffset : Scan Unit :=
  discard (one fun c => c = 'Z' || c = 'z') <|> do
    discard (one fun c => c = '+' || c = '-')
    discard (twoDigits 0 23)
    char ':'
    discard (twoDigits 0 59)

/-- A date, a time or both are a record of one field, which no record here has. -/
def moment : Scan Document := do
  (do date
      discard (option do
        discard (one fun c => c = 'T' || c = 't' || c = ' ')
        time
        option timeOffset)) <|> time
  return .record [("$__toml_private_datetime", .foreign)]

def number : Scan Document :=
  moment <|> float <|> specialFloat <|> basedInteger 'x' 16 <|> basedInteger 'o' 8 <|>
    basedInteger 'b' 2 <|> decimalInteger

end LedgerBridge.Toml
