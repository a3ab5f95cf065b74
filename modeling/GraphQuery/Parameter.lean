import GraphQuery.Error
import GraphQuery.Json
import GraphQuery.Text.Identifier

/-! Parameters: places for values that are kept out of the text of a statement. -/
namespace GraphQuery

/-- What makes two parameters one: a name, or for a parameter without name its identity. -/
inductive ParameterKey where
  | named (name : Identifier)
  | anonymous (id : Nat)
  deriving DecidableEq

/-- A parameter has an identity that its copies share, and a name or none. It may carry a value: to carry
`null` is not the same as to carry nothing. -/
structure Parameter where
  id : Nat
  name? : Option Identifier
  value : Option Json

namespace Identifier

/-- The name of a variable or an alias. -/
def symbolic (s : String) : Except ArgumentError Identifier :=
  if s = "" then .error .nameMissing
  else
    match ofString? s with
    | some n => .ok n
    | none => .error (.nameInvalid s)

end Identifier

namespace Parameter

/-- Remove one leading dollar sign. -/
def bareName (s : String) : String :=
  match s.toList with
  | '$' :: rest => String.ofList rest
  | _ => s

def named (id : Nat) (s : String) : Except ArgumentError Parameter :=
  let name := bareName s
  if name = "" then .error .parameterNameMissing
  else
    match Identifier.ofString? name with
    | some n => .ok ⟨id, some n, none⟩
    | none => .error (.parameterNameInvalid name)

def anonymous (id : Nat) (value : Json) : Parameter := ⟨id, none, some value⟩

def withValue (p : Parameter) (value : Json) : Parameter := { p with value := some value }

/-- What tells the parameter from others: its name, or its identity where it has none. -/
def key (p : Parameter) : ParameterKey :=
  match p.name? with
  | some n => .named n
  | none => .anonymous p.id

def isAnonymous (p : Parameter) : Bool := p.name?.isNone

/-- One parameter with one value, or one parameter that carries nothing on both sides. -/
def same (p q : Parameter) : Bool :=
  p.key == q.key &&
    match p.value, q.value with
    | none, none => true
    | some v, some w => v.same w
    | _, _ => false

theorem name?_eq_some {p : Parameter} {n : Identifier} : p.name? = some n ↔ p.key = .named n := by
  unfold key
  cases p.name? <;> simp

theorem name?_eq_none {p : Parameter} : p.name? = none ↔ ∃ id, p.key = .anonymous id := by
  unfold key
  cases p.name? <;> simp

theorem isAnonymous_of_named {p : Parameter} {n : Identifier} (h : p.key = .named n) :
    p.isAnonymous = false := by
  rw [isAnonymous, name?_eq_some.mpr h]
  rfl

theorem isAnonymous_of_anonymous {p : Parameter} {id : Nat} (h : p.key = .anonymous id) :
    p.isAnonymous = true := by
  rw [isAnonymous, name?_eq_none.mpr ⟨id, h⟩]
  rfl

example : bareName "$$a" = "$a" := by decide
example : (named 0 "$").toOption.isNone ∧ (named 0 "$a").toOption.isSome := by decide +kernel

end Parameter
end GraphQuery
