import GraphQuery.Toml.Scalar
import GraphQuery.Toml.Tables

/-! Reading TOML documents. A value lies in at most 80 brackets, and a dotted key has at most 80
parts. -/
namespace GraphQuery.Toml.Parser

/-- How many brackets may lie around a value, and how many parts a key may have. -/
def depthLimit : Nat := 80

def skipSpaces (cs : List Char) : List Char := cs.dropWhile isSpace

/-- What follows a comment, its line end included. -/
def skipComment : List Char → Option (List Char)
  | [] => some []
  | '\n' :: rest => some ('\n' :: rest)
  | '\r' :: '\n' :: rest => some ('\r' :: '\n' :: rest)
  | c :: rest => if isControl c then none else skipComment rest

/-- What follows blanks, line ends and comments, of which there are fewer than `fuel`. -/
def skipTriviaWithin (fuel : Nat) (cs : List Char) : Option (List Char) :=
  match fuel with
  | 0 => none
  | fuel + 1 =>
    match skipSpaces cs with
    | '#' :: rest => (skipComment rest).bind (skipTriviaWithin fuel)
    | cs =>
      match newline? cs with
      | some rest => skipTriviaWithin fuel rest
      | none => some cs

/-- What follows blanks, line ends and comments. -/
def skipTrivia (cs : List Char) : Option (List Char) := skipTriviaWithin (cs.length + 1) cs

/-- What follows the end of an expression: blanks, perhaps a comment, and a line end. -/
def endLine? (cs : List Char) : Option (List Char) := do
  let rest ← match skipSpaces cs with
    | '#' :: rest => skipComment rest
    | cs => some cs
  match rest with
  | [] => some []
  | cs => newline? cs

def isBare (c : Char) : Bool := c.isAlphanum || c == '-' || c == '_'

def simpleKey? (cs : List Char) : Option (String × List Char) :=
  match cs with
  | '"' :: rest => (readBasic (rest.length + 1) rest).map fun r => (String.ofList r.1, r.2)
  | '\x27' :: rest => (readLiteral rest).map fun r => (String.ofList r.1, r.2)
  | cs =>
    let bare := cs.takeWhile isBare
    if bare.isEmpty then none else some (String.ofList bare, cs.dropWhile isBare)

/-- The parts of a dotted key, at most `fuel`: those on the way and the last one. -/
def keyParts? (fuel : Nat) (cs : List Char) : Option ((List String × String) × List Char) :=
  match fuel with
  | 0 => none
  | fuel + 1 => do
    let (k, cs) ← simpleKey? cs
    let cs := skipSpaces cs
    match cs with
    | '.' :: rest =>
      let ((path, last), cs) ← keyParts? fuel (skipSpaces rest)
      return ((k :: path, last), cs)
    | cs => return (([], k), cs)

/-- A dotted key: the keys on the way and the last one. -/
def key? (cs : List Char) : Option ((List String × String) × List Char) :=
  keyParts? depthLimit cs

def isDelimiter (c : Char) : Bool :=
  isSpace c || [',', '=', '#', '[', ']', '\x7b', '\x7d', '\n', '\r'].contains c

/-- The text of a scalar. A date and a time may be parted by one space. -/
def scalarText (cs : List Char) : List Char × List Char :=
  let text := cs.takeWhile (!isDelimiter ·)
  let rest := cs.dropWhile (!isDelimiter ·)
  match date? text, rest with
  | some [], ' ' :: c :: more =>
    if c.isDigit then
      (text ++ ' ' :: (c :: more).takeWhile (!isDelimiter ·), (c :: more).dropWhile (!isDelimiter ·))
    else (text, rest)
  | _, _ => (text, rest)

mutual

/-- One value, within which `depth` brackets may lie in one another; `fuel` bounds the number of
members. -/
def value? (fuel depth : Nat) (cs : List Char) : Option (Toml × List Char) :=
  match fuel with
  | 0 => none
  | fuel + 1 =>
    match depth, cs with
    | depth + 1, '[' :: rest => (items? fuel depth rest).map fun r => (.array r.1, r.2)
    | depth + 1, '\x7b' :: rest =>
      (members? fuel depth [] rest).map fun r => (.table (finishEntries r.1), r.2)
    | _, c :: rest =>
      if c = '"' ∨ c = '\x27' then
        (readString? (c :: rest)).map fun r => (.string (String.ofList r.1), r.2)
      else
        let (text, rest) := scalarText (c :: rest)
        (scalar? text).map (·, rest)
    | _, [] => none

/-- The rest of an array. -/
def items? (fuel depth : Nat) (cs : List Char) : Option (List Toml × List Char) :=
  match fuel with
  | 0 => none
  | fuel + 1 => do
    match ← skipTrivia cs with
    | ']' :: rest => return ([], rest)
    | cs =>
      let (v, cs) ← value? fuel depth cs
      match ← skipTrivia cs with
      | ']' :: rest => return ([v], rest)
      | ',' :: rest =>
        let (vs, rest) ← items? fuel depth rest
        return (v :: vs, rest)
      | _ => none

/-- The rest of an inline table, whose members so far are given. -/
def members? (fuel depth : Nat) (es : Entries) (cs : List Char) : Option (Entries × List Char) :=
  match fuel with
  | 0 => none
  | fuel + 1 => do
    match ← skipTrivia cs with
    | '\x7d' :: rest => return (es, rest)
    | cs =>
      let ((path, key), cs) ← key? cs
      match ← skipTrivia cs with
      | '=' :: rest =>
        let (v, cs) ← value? fuel depth (← skipTrivia rest)
        let es ← es.insert path key v .header
        match ← skipTrivia cs with
        | '\x7d' :: rest => return (es, rest)
        | ',' :: rest => members? fuel depth es rest
        | _ => none
      | _ => none

end

/-- The lines of a document. `path` leads to the table of the last header. -/
def lines? (fuel : Nat) (path : List String) (es : Entries) (cs : List Char) : Option Entries :=
  match fuel with
  | 0 => none
  | fuel + 1 => do
    match ← skipTrivia cs with
    | [] => return es
    | '[' :: '[' :: rest =>
      let ((parents, key), cs) ← key? (skipSpaces rest)
      match cs with
      | ']' :: ']' :: rest =>
        let es ← es.openElement parents key
        lines? fuel (parents ++ [key]) es (← endLine? rest)
      | _ => none
    | '[' :: rest =>
      let ((parents, key), cs) ← key? (skipSpaces rest)
      match cs with
      | ']' :: rest =>
        let es ← es.openTable parents key
        lines? fuel (parents ++ [key]) es (← endLine? rest)
      | _ => none
    | cs =>
      let ((parents, key), cs) ← key? cs
      match cs with
      | '=' :: rest =>
        let (v, cs) ← value? (rest.length + 1) depthLimit (skipSpaces rest)
        let es ← Entries.modifyAt false (fun origin es => es.insert parents key v origin) path .header es
        lines? fuel path es (← endLine? cs)
      | _ => none

end Parser

/-- The table of a document, which may begin with a byte order mark. -/
def parse? (s : String) : Option (List (String × Toml)) :=
  let cs := match s.toList with
    | '\ufeff' :: rest => rest
    | cs => cs
  (Parser.lines? (cs.length + 1) [] [] cs).map finishEntries

example : (parse? "[a]\nb.c = [1, 'x', ] # d\n[[a.t]]\n").isSome := by decide +kernel
example : (parse? "a = \x7bb # c\n = \n1,\n\x7d").isSome ∧ (parse? "a = \x7bb.\nc = 1\x7d").isNone := by
  decide +kernel
example : (parse? "a = 1\na = 2\n").isNone ∧ (parse? "a = b\n").isNone ∧ (parse? "a = 1 2").isNone := by
  decide +kernel

end GraphQuery.Toml
