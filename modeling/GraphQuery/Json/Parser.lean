import GraphQuery.Json

/-! Reading JSON text. A number without point and exponent is whole if it has at most 64 bits;
all others, and minus zero, are floats. -/
namespace GraphQuery.Json.Parser

def skipBlank (cs : List Char) : List Char :=
  cs.dropWhile fun c => c == ' ' || c == '\t' || c == '\n' || c == '\r'

def hexValue? (c : Char) : Option Nat :=
  if '0' ≤ c ∧ c ≤ '9' then some (c.toNat - 48)
  else if 'a' ≤ c ∧ c ≤ 'f' then some (c.toNat - 87)
  else if 'A' ≤ c ∧ c ≤ 'F' then some (c.toNat - 55)
  else none

def hexQuad? : List Char → Option (Nat × List Char)
  | a :: b :: c :: d :: rest => do
    let a ← hexValue? a
    let b ← hexValue? b
    let c ← hexValue? c
    let d ← hexValue? d
    return (((a * 16 + b) * 16 + c) * 16 + d, rest)
  | _ => none

/-- One escape after its backslash. A high surrogate needs a low one behind it. -/
def escape? : List Char → Option (Char × List Char)
  | '"' :: rest => some ('"', rest)
  | '\\' :: rest => some ('\\', rest)
  | '/' :: rest => some ('/', rest)
  | 'b' :: rest => some ('\x08', rest)
  | 'f' :: rest => some ('\x0C', rest)
  | 'n' :: rest => some ('\n', rest)
  | 'r' :: rest => some ('\r', rest)
  | 't' :: rest => some ('\t', rest)
  | 'u' :: rest => do
    let (n, rest) ← hexQuad? rest
    if n < 0xD800 ∨ 0xDFFF < n then return (Char.ofNat n, rest)
    else if 0xDC00 ≤ n then none
    else match rest with
      | '\\' :: 'u' :: rest =>
        let (m, rest) ← hexQuad? rest
        if m < 0xDC00 ∨ 0xDFFF < m then none
        else return (Char.ofNat (0x10000 + (n - 0xD800) * 0x400 + (m - 0xDC00)), rest)
      | _ => none
  | _ => none

/-- The rest of a string after its first quote; `fuel` bounds the number of characters. -/
def string? (fuel : Nat) (done : List Char) (cs : List Char) : Option (String × List Char) :=
  match fuel, cs with
  | 0, _ => none
  | _, [] => none
  | _, '"' :: rest => some (String.ofList done.reverse, rest)
  | fuel + 1, '\\' :: rest => do
    let (c, rest) ← escape? rest
    string? fuel (c :: done) rest
  | fuel + 1, c :: rest => if c.toNat < 0x20 then none else string? fuel (c :: done) rest

def digitsValue (cs : List Char) : Nat := cs.foldl (fun n c => n * 10 + (c.toNat - 48)) 0

/-- The exponent part of a number: nothing, or an `e` with a sign and digits. -/
def exponent? (cs : List Char) : Option (Option Int × List Char) :=
  match cs with
  | c :: rest =>
    if c = 'e' ∨ c = 'E' then
      let (negative, rest) := match rest with
        | '-' :: rest => (true, rest)
        | '+' :: rest => (false, rest)
        | rest => (false, rest)
      let ds := rest.takeWhile Char.isDigit
      if ds.isEmpty then none
      else
        let n : Int := digitsValue ds
        some (some (if negative then -n else n), rest.dropWhile Char.isDigit)
    else some (none, cs)
  | [] => some (none, cs)

/-- The fraction part of a number: nothing, or a point and digits. -/
def fraction? (cs : List Char) : Option (Option (List Char) × List Char) :=
  match cs with
  | '.' :: rest =>
    let ds := rest.takeWhile Char.isDigit
    if ds.isEmpty then none else some (some ds, rest.dropWhile Char.isDigit)
  | _ => some (none, cs)

def number? (cs : List Char) : Option (Json × List Char) := do
  let (negative, cs) := match cs with
    | '-' :: rest => (true, rest)
    | _ => (false, cs)
  let whole := cs.takeWhile Char.isDigit
  if whole.isEmpty ∨ (1 < whole.length ∧ whole.head? = some '0') then none
  else
    let (fraction, cs) ← fraction? (cs.dropWhile Char.isDigit)
    let (power, cs) ← exponent? cs
    let n := digitsValue whole
    let asFloat : Option (Json × List Char) :=
      let places := fraction.getD []
      let digits := digitsValue (whole ++ places)
      (Binary64.ofDecimal? negative digits (power.getD 0 - places.length)).map fun x => (.float x, cs)
    if fraction.isSome ∨ power.isSome ∨ (negative ∧ n = 0) then asFloat
    else
      match WideInt.ofInt? (if negative then -(n : Int) else n) with
      | some n => return (.integer n, cs)
      | none => asFloat

def word? (word : String) (value : Json) (cs : List Char) : Option (Json × List Char) :=
  if word.toList.isPrefixOf cs then some (value, cs.drop word.length) else none

mutual

/-- One value; `fuel` bounds the number of values and separators read. -/
def value? (fuel : Nat) (cs : List Char) : Option (Json × List Char) :=
  match fuel with
  | 0 => none
  | fuel + 1 =>
    match skipBlank cs with
    | [] => none
    | '"' :: rest => (string? (rest.length + 1) [] rest).map fun r => (.string r.1, r.2)
    | '[' :: rest =>
      match skipBlank rest with
      | ']' :: rest => some (.array [], rest)
      | rest => (items? fuel rest).map fun r => (.array r.1, r.2)
    | '\x7b' :: rest =>
      match skipBlank rest with
      | '\x7d' :: rest => some (.object [], rest)
      | rest => (entries? fuel rest).map fun r => (ofEntries r.1, r.2)
    | 'n' :: rest => word? "ull" .null rest
    | 't' :: rest => word? "rue" (.bool true) rest
    | 'f' :: rest => word? "alse" (.bool false) rest
    | cs => number? cs

def items? (fuel : Nat) (cs : List Char) : Option (List Json × List Char) :=
  match fuel with
  | 0 => none
  | fuel + 1 => do
    let (v, cs) ← value? fuel cs
    match skipBlank cs with
    | ']' :: rest => return ([v], rest)
    | ',' :: rest =>
      let (vs, rest) ← items? fuel rest
      return (v :: vs, rest)
    | _ => none

def entries? (fuel : Nat) (cs : List Char) : Option (List (String × Json) × List Char) :=
  match fuel with
  | 0 => none
  | fuel + 1 =>
    match skipBlank cs with
    | '"' :: rest => do
      let (k, cs) ← string? (rest.length + 1) [] rest
      match skipBlank cs with
      | ':' :: rest =>
        let (v, cs) ← value? fuel rest
        match skipBlank cs with
        | '\x7d' :: rest => return ([(k, v)], rest)
        | ',' :: rest =>
          let (vs, rest) ← entries? fuel rest
          return ((k, v) :: vs, rest)
        | _ => none
      | _ => none
    | _ => none

end

end Parser

/-- The value of a text that holds one JSON value and nothing else. -/
def parse? (s : String) : Option Json :=
  match Parser.value? (s.length + 1) s.toList with
  | some (v, rest) => if (Parser.skipBlank rest).isEmpty then some v else none
  | none => none

example : (parse? "[1, -0, 1.0, \"\\ud83d\\ude00\"]").map (fun v => match v with
    | .array [.integer a, .float b, .float _, .string s] => a.value == 1 && b.negative && s == "😀"
    | _ => false) = some true := by decide +kernel
example : (parse? "\x7b\"b\":1,\"a\":2,\"b\":3\x7d").map (fun v => match v with
    | .object [(a, _), (b, .integer n)] => a == "a" && b == "b" && n.value == 3
    | _ => false) = some true := by decide +kernel
example : (parse? "[1,]").isNone ∧ (parse? "01").isNone ∧ (parse? "1 2").isNone := by decide +kernel

end GraphQuery.Json
