/-! Strings in TOML. A string stands in single or double quotes, on one line or on several; only
in double quotes does a backslash escape. The writer takes the plainest form that holds the
string. -/
namespace GraphQuery.Toml

/-- Characters that stand in no string and no comment as they are. -/
def isControl (c : Char) : Bool := (c.toNat < 0x20 && c != '\t') || c.toNat == 0x7F

def hexValue? (c : Char) : Option Nat :=
  if '0' ≤ c ∧ c ≤ '9' then some (c.toNat - 48)
  else if 'a' ≤ c ∧ c ≤ 'f' then some (c.toNat - 87)
  else if 'A' ≤ c ∧ c ≤ 'F' then some (c.toNat - 55)
  else none

/-- The character with a code point in hexadecimal digits; surrogates are none. -/
def codePoint? (digits : List Char) : Option Char := do
  let n ← digits.foldlM (fun n c => (hexValue? c).map (n * 16 + ·)) 0
  if n < 0xD800 ∨ (0xDFFF < n ∧ n < 0x110000) then some (Char.ofNat n) else none

/-- One escape after its backslash. -/
def escape? : List Char → Option (Char × List Char)
  | 'b' :: rest => some ('\x08', rest)
  | 't' :: rest => some ('\t', rest)
  | 'n' :: rest => some ('\n', rest)
  | 'f' :: rest => some ('\x0C', rest)
  | 'r' :: rest => some ('\r', rest)
  | 'e' :: rest => some ('\x1B', rest)
  | '"' :: rest => some ('"', rest)
  | '\\' :: rest => some ('\\', rest)
  | 'x' :: rest => point rest 2
  | 'u' :: rest => point rest 4
  | 'U' :: rest => point rest 8
  | _ => none
where
  point (rest : List Char) (n : Nat) : Option (Char × List Char) :=
    if n ≤ rest.length then (codePoint? (rest.take n)).map (·, rest.drop n) else none

abbrev Reading := Option (List Char × List Char)

def Reading.cons (c : Char) (r : Reading) : Reading := r.map fun r => (c :: r.1, r.2)

/-- The rest of a string on one line in double quotes. -/
def readBasic (fuel : Nat) (cs : List Char) : Reading :=
  match fuel, cs with
  | 0, _ => none
  | _, [] => none
  | _, '"' :: rest => some ([], rest)
  | fuel + 1, '\\' :: rest => (escape? rest).bind fun e => (readBasic fuel e.2).cons e.1
  | fuel + 1, c :: rest => if isControl c then none else (readBasic fuel rest).cons c

/-- The rest of a string on one line in single quotes. -/
def readLiteral : List Char → Reading
  | [] => none
  | '\x27' :: rest => some ([], rest)
  | c :: rest => if isControl c then none else (readLiteral rest).cons c

def isSpace (c : Char) : Bool := c == ' ' || c == '\t'

/-- What follows an end of line, if there is one. -/
def newline? : List Char → Option (List Char)
  | '\n' :: rest => some rest
  | '\r' :: '\n' :: rest => some rest
  | _ => none

/-- An end of line right behind the opening quotes does not count. -/
def skipNewline (cs : List Char) : List Char := (newline? cs).getD cs

/-- After three closing quotes up to two more belong to the string. -/
def closeWith (quote : Char) : List Char → List Char × List Char
  | a :: b :: rest =>
    if a = quote ∧ b = quote then ([quote, quote], rest)
    else if a = quote then ([quote], b :: rest)
    else ([], a :: b :: rest)
  | [a] => if a = quote then ([quote], []) else ([], [a])
  | [] => ([], [])

/-- What follows blanks and line ends. -/
def skipLines : List Char → List Char
  | '\r' :: '\n' :: rest => skipLines rest
  | c :: rest => if isSpace c || c == '\n' then skipLines rest else c :: rest
  | [] => []

/-- The rest of a string on several lines in double quotes. A backslash at the end of a line
removes the line end and all blanks and line ends after it; every other line end is kept as it
stands. -/
def readBasicLines (fuel : Nat) (cs : List Char) : Reading :=
  match fuel, cs with
  | 0, _ => none
  | _, [] => none
  | _, '"' :: '"' :: '"' :: rest => some (closeWith '"' rest)
  | fuel + 1, '\\' :: rest =>
    match newline? (rest.dropWhile isSpace) with
    | some rest => readBasicLines fuel (skipLines rest)
    | none => (escape? rest).bind fun e => (readBasicLines fuel e.2).cons e.1
  | fuel + 1, '\r' :: '\n' :: rest => ((readBasicLines fuel rest).cons '\n').cons '\r'
  | fuel + 1, c :: rest =>
    if isControl c && c != '\n' then none else (readBasicLines fuel rest).cons c

/-- The rest of a string on several lines in single quotes. -/
def readLiteralLines : List Char → Reading
  | [] => none
  | '\x27' :: '\x27' :: '\x27' :: rest => some (closeWith '\x27' rest)
  | '\r' :: '\n' :: rest => ((readLiteralLines rest).cons '\n').cons '\r'
  | c :: rest => if isControl c && c != '\n' then none else (readLiteralLines rest).cons c

/-- A string in any of its forms. -/
def readString? (cs : List Char) : Reading :=
  match cs with
  | '"' :: '"' :: '"' :: rest =>
    let body := skipNewline rest
    readBasicLines (body.length + 1) body
  | '\x27' :: '\x27' :: '\x27' :: rest =>
    readLiteralLines (skipNewline rest)
  | '"' :: rest => readBasic (rest.length + 1) rest
  | '\x27' :: rest => readLiteral rest
  | _ => none

/-- The longest run of a character. -/
def longestRun (quote : Char) (current longest : Nat) : List Char → Nat
  | [] => max current longest
  | c :: rest =>
    if c = quote then longestRun quote (current + 1) longest rest
    else longestRun quote 0 (max current longest) rest

def hexUpper (n : Nat) : List Char :=
  (Nat.toDigits 16 n).map fun c => if 'a' ≤ c ∧ c ≤ 'f' then Char.ofNat (c.toNat - 32) else c

def escapeQuad (c : Char) : List Char :=
  let ds := hexUpper c.toNat
  '\\' :: 'u' :: (List.replicate (4 - ds.length) '0' ++ ds)

/-- The text between double quotes. `run` quotes have been written in a row just before, and at
most `allowed` may stand there; line ends stay as they are on several lines. -/
def escaped (lines : Bool) (allowed run : Nat) : List Char → List Char
  | [] => []
  | c :: rest =>
    if c = '"' then
      if run < allowed then '"' :: escaped lines allowed (run + 1) rest
      else '\\' :: '"' :: escaped lines allowed 0 rest
    else
      let text :=
        if c = '\x08' then ['\\', 'b']
        else if c = '\t' then ['\\', 't']
        else if c = '\n' then if lines then ['\n'] else ['\\', 'n']
        else if c = '\x0C' then ['\\', 'f']
        else if c = '\r' then ['\\', 'r']
        else if c = '\\' then ['\\', '\\']
        else if c.toNat < 0x20 ∨ c.toNat = 0x7F then escapeQuad c
        else [c]
      text ++ escaped lines allowed 0 rest

/-- The forms of a string. -/
inductive Form where
  | basic
  | literal
  | basicLines
  | literalLines
  deriving DecidableEq, Repr

/-- The first of the forms that holds the string without an escape, and one that can hold
everything if none does. -/
def formOf (cs : List Char) : Form :=
  let controls := cs.any fun c => isControl c && c != '\n'
  let backslash := cs.contains '\\'
  let lines := cs.contains '\n'
  let doubles := longestRun '"' 0 0 cs
  let singles := longestRun '\x27' 0 0 cs
  if !controls && !backslash && doubles = 0 && !lines then .basic
  else if !controls && singles = 0 && !lines then .literal
  else if !controls && !backslash && doubles ≤ 2 then .basicLines
  else if !controls && singles ≤ 2 then .literalLines
  else if lines then .basicLines
  else .basic

/-- The quotes around a form, and behind the first of them the end of line that makes room for a
string that has line ends of its own. -/
def enclosed (quote : Char) (lines : Bool) (body : List Char) : List Char :=
  let quotes := List.replicate 3 quote
  quotes ++ (if lines then ['\n'] else []) ++ body ++ quotes

def writeChars (cs : List Char) : List Char :=
  match formOf cs with
  | .basic => '"' :: (escaped false 0 0 cs ++ ['"'])
  | .literal => '\x27' :: (cs ++ ['\x27'])
  | .basicLines => enclosed '"' (cs.contains '\n') (escaped true 2 0 cs)
  | .literalLines => enclosed '\x27' (cs.contains '\n') cs

def writeString (s : String) : String := String.ofList (writeChars s.toList)

example : writeString "say \"hi\"" = "'say \"hi\"'" := by decide
example : writeString "it's" = "\"it's\"" := by decide
example : writeString "a\nb" = "\"\"\"\na\nb\"\"\"" := by decide
example : writeString "\"'" = "\"\"\"\"'\"\"\"" := by decide
example : writeString "a\x07" = "\"a\\u0007\"" := by decide
example : readString? "\x27\x27\x27\r\na\r\n\x27\x27\x27".toList = some ("a\r\n".toList, []) := by decide
example : readString? (writeChars "\\'\"\n\x01\"\"\"".toList) = some ("\\'\"\n\x01\"\"\"".toList, []) := by
  decide +kernel

end GraphQuery.Toml
