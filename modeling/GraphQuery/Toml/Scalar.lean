import GraphQuery.Decimal.Binary64
import GraphQuery.Toml
import GraphQuery.Toml.Text

/-! Scalars in TOML that are not strings: truth values, numbers, dates and times. -/
namespace GraphQuery.Toml

def valueOf (base : Nat) (ds : List Char) : Nat :=
  ds.foldl (fun n c => n * base + (hexValue? c).getD 0) 0

/-- Splits off a sign, with whether it is a minus. -/
def splitSign : List Char → Bool × List Char
  | '-' :: rest => (true, rest)
  | '+' :: rest => (false, rest)
  | cs => (false, cs)

/-- Whether every underscore stands between two digits. `afterDigit` tells of the character
before. -/
def underscoresInside (isDigit : Char → Bool) (afterDigit : Bool) : List Char → Bool
  | [] => true
  | ['_'] => false
  | '_' :: c :: rest => afterDigit && isDigit c && underscoresInside isDigit true rest
  | c :: rest => underscoresInside isDigit (isDigit c) rest

def isHexDigit (c : Char) : Bool := (hexValue? c).isSome

def isDigitOf (base : Nat) (c : Char) : Bool := (hexValue? c).any (· < base)

/-- The whole number of some digits and a sign, if there are digits at all, each is one of the
base, and 128 bits can hold the number. -/
def integerValue? (base : Nat) (negative : Bool) (ds : List Char) : Option Int :=
  if ds.isEmpty || !ds.all (isDigitOf base) then none
  else
    let n : Int := if negative then -(valueOf base ds : Int) else valueOf base ds
    if -170141183460469231731687303715884105728 ≤ n ∧ n < 340282366920938463463374607431768211456
    then some n else none

/-- A whole number by its sign and its text after the mark of the base. Underscores must stand
between hexadecimal digits; what else the text is decides only whether it can be read. -/
def integer? (base : Nat) (negative : Bool) (cs : List Char) : Option Toml :=
  if underscoresInside isHexDigit false cs then
    let ds := cs.filter (· != '_')
    some (((integerValue? base negative ds).map Toml.integer).getD .unreadable)
  else none

/-- A whole number by its text after a mark such as `0x`: no sign, and digits of the base only. A
text of no digits cannot be read. -/
def marked? (base : Nat) (cs : List Char) : Option Toml :=
  if cs.all fun c => c == '_' || isDigitOf base c then integer? base false cs else none

/-- Digits, perhaps with underscores between them. -/
def digits? (cs : List Char) : Option (List Char) :=
  let ds := cs.filter (· != '_')
  if !ds.isEmpty && ds.all Char.isDigit && underscoresInside Char.isDigit false cs then some ds
  else none

/-- Digits without a zero in front. -/
def wholeDigits? (cs : List Char) : Option (List Char) := do
  let ds ← digits? cs
  if ds.head? = some '0' ∧ 1 < ds.length then none else some ds

/-- A float: digits with a fraction, an exponent or both. One that overflows cannot be read. -/
def float? (cs : List Char) : Option Toml := do
  let isBody := fun c : Char => c.isDigit || c == '_'
  let cs := (splitSign cs).2
  let whole ← wholeDigits? (cs.takeWhile isBody)
  let rest := cs.dropWhile isBody
  let (places, rest) ← match rest with
    | '.' :: rest => (digits? (rest.takeWhile isBody)).map (·, rest.dropWhile isBody)
    | rest => some ([], rest)
  let exponent : Int ← match rest with
    | [] => some 0
    | c :: rest =>
      let (negative, cs) := splitSign rest
      if c = 'e' ∨ c = 'E' then
        (digits? cs).map fun ds => if negative then -(valueOf 10 ds : Int) else valueOf 10 ds
      else none
  match Binary64.ofDecimal? false (valueOf 10 (whole ++ places)) (exponent - places.length) with
  | some _ => return .float
  | none => return .unreadable

/-- A number in base ten. A point or an `e` anywhere makes it a float. -/
def decimal? (cs : List Char) : Option Toml :=
  let (negative, body) := splitSign cs
  if body = ['i', 'n', 'f'] ∨ body = ['n', 'a', 'n'] then some .float
  else if body.any fun c => c == '.' || c == 'e' || c == 'E' then float? cs
  else
    match body, body.dropWhile Char.isDigit with
    | [], _ => none
    | ['0'], _ => some (.integer 0)
    | '0' :: _, _ => none
    | _, [] => integer? 10 negative body
    | _, '_' :: _ => integer? 10 negative body
    | _, _ => none

/-- A number of exactly `n` digits within bounds. -/
def field? (n low high : Nat) (cs : List Char) : Option (Nat × List Char) :=
  let ds := cs.take n
  let v := valueOf 10 ds
  if ds.length = n ∧ ds.all Char.isDigit ∧ low ≤ v ∧ v ≤ high then some (v, cs.drop n) else none

def expect? (c : Char) : List Char → Option (List Char)
  | d :: rest => if d = c then some rest else none
  | [] => none

def daysIn (year month : Nat) : Nat :=
  if month = 2 then if year % 4 = 0 ∧ (year % 100 ≠ 0 ∨ year % 400 = 0) then 29 else 28
  else if month ∈ [4, 6, 9, 11] then 30
  else 31

/-- A calendar date, and what follows it. -/
def date? (cs : List Char) : Option (List Char) := do
  let (year, cs) ← field? 4 0 9999 cs
  let cs ← expect? '-' cs
  let (month, cs) ← field? 2 1 12 cs
  let cs ← expect? '-' cs
  let (_, cs) ← field? 2 1 (daysIn year month) cs
  return cs

/-- A time of day, and what follows it. Seconds and their fraction may be missing. -/
def time? (cs : List Char) : Option (List Char) := do
  let (_, cs) ← field? 2 0 23 cs
  let cs ← expect? ':' cs
  let (_, cs) ← field? 2 0 59 cs
  match cs with
  | ':' :: cs =>
    let (_, cs) ← field? 2 0 60 cs
    match cs with
    | '.' :: cs =>
      if (cs.takeWhile Char.isDigit).isEmpty then none else return cs.dropWhile Char.isDigit
    | cs => return cs
  | cs => return cs

def isOffset (cs : List Char) : Bool :=
  match cs with
  | [] => true
  | ['z'] => true
  | ['Z'] => true
  | c :: rest =>
    (c == '+' || c == '-') &&
      (do
        let (_, cs) ← field? 2 0 23 rest
        let cs ← expect? ':' cs
        let (_, cs) ← field? 2 0 59 cs
        return cs.isEmpty : Option Bool).getD false

/-- A date, a time, or a date and a time with or without an offset. -/
def isDateTime (cs : List Char) : Bool :=
  match date? cs with
  | some [] => true
  | some (c :: rest) =>
    (c == 'T' || c == 't' || c == ' ') && ((time? rest).map isOffset).getD false
  | none => time? cs == some []

def scalar? (cs : List Char) : Option Toml :=
  if cs = ['t', 'r', 'u', 'e'] then some (.boolean true)
  else if cs = ['f', 'a', 'l', 's', 'e'] then some (.boolean false)
  else
    match cs with
    | '0' :: 'x' :: ds => marked? 16 ds
    | '0' :: 'o' :: ds => marked? 8 ds
    | '0' :: 'b' :: ds => marked? 2 ds
    | cs => if isDateTime cs then some .dateTime else decimal? cs

example : scalar? "0xFf".toList matches some (.integer 255) := by decide +kernel
example : scalar? "-inf".toList matches some .float := by decide +kernel
example : scalar? "1_a".toList matches some .unreadable := by decide +kernel
example : (scalar? []).isNone ∧ (scalar? "01".toList).isNone ∧ (scalar? "1__0".toList).isNone := by decide +kernel
example : (scalar? "+0x1".toList).isNone ∧ (scalar? "0b2".toList).isNone ∧ (scalar? "1.".toList).isNone := by
  decide +kernel
example : isDateTime "2024-02-29T07:32:00.5Z".toList ∧ isDateTime "07:32:00".toList := by decide +kernel
example : ¬ isDateTime "2023-02-29".toList := by decide +kernel

end GraphQuery.Toml
