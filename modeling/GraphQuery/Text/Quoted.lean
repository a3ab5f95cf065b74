/-! Quoted text. A quoted name stands between backticks and writes a backtick of its own twice;
a quoted string stands between single quotes and puts a backslash before a quote or a backslash. -/
namespace GraphQuery.Text

/-- One character of a quoted name. -/
def nameChar (c : Char) : List Char :=
  if c = '\x60' then ['\x60', '\x60'] else [c]

def quotedName (s : String) : String :=
  String.ofList ('\x60' :: (s.toList.flatMap nameChar ++ ['\x60']))

/-- One character of a quoted string. -/
def stringChar (c : Char) : List Char :=
  if c = '\\' ∨ c = '\x27' then ['\\', c] else [c]

def escapedString (s : String) : String :=
  String.ofList (s.toList.flatMap stringChar)

def quotedString (s : String) : String :=
  String.ofList ('\x27' :: (s.toList.flatMap stringChar ++ ['\x27']))

@[simp] theorem toList_quotedName (s : String) :
    (quotedName s).toList = '\x60' :: (s.toList.flatMap nameChar ++ ['\x60']) := by
  simp [quotedName]

@[simp] theorem toList_escapedString (s : String) :
    (escapedString s).toList = s.toList.flatMap stringChar := by
  simp [escapedString]

@[simp] theorem toList_quotedString (s : String) :
    (quotedString s).toList = '\x27' :: ((escapedString s).toList ++ ['\x27']) := by
  simp [quotedString]

example : quotedName "Has\x60Tick" = "\x60Has\x60\x60Tick\x60" := by decide
example : quotedName "" = "\x60\x60" := by decide
example : quotedString "Tom's \\" = "'Tom\\'s \\\\'" := by decide

end GraphQuery.Text
