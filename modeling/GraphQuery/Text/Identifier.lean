import GraphQuery.Text.Character

/-! Identifiers: a letter or an underscore, then letters, numbers and underscores. They name
variables, aliases and parameters and are written without quotes. -/
namespace GraphQuery

namespace Text

def isNameStart (c : Char) : Bool := c == '_' || isLetter c

def isNamePart (c : Char) : Bool := c == '_' || isLetter c || isNumber c

def isIdentifier (s : String) : Bool :=
  match s.toList with
  | [] => false
  | c :: rest => isNameStart c && rest.all isNamePart

@[simp] theorem isIdentifier_empty : isIdentifier "" = false := rfl

end Text

/-- Text that can stand unquoted as a name. -/
structure Identifier where
  text : String
  valid : Text.isIdentifier text = true
  deriving DecidableEq

namespace Identifier

def ofString? (s : String) : Option Identifier :=
  if h : Text.isIdentifier s = true then some ⟨s, h⟩ else none

theorem ext_text {a b : Identifier} (h : a.text = b.text) : a = b := by
  cases a; cases b; cases h; rfl

@[simp] theorem ofString?_text (n : Identifier) : ofString? n.text = some n := by
  simp [ofString?, n.valid]

end Identifier

example : Text.isIdentifier "café" ∧ Text.isIdentifier "_1" ∧ Text.isIdentifier "a²" := by decide +kernel
example : ¬ Text.isIdentifier "1a" ∧ ¬ Text.isIdentifier "a\n" ∧ ¬ Text.isIdentifier "a b" := by decide +kernel

end GraphQuery
