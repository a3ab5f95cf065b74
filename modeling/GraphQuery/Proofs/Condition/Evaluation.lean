import GraphQuery.Condition

/-! The truth value of a condition, in logic with a third value. Whatever values comparisons, tests and
label predicates have, composing conditions applies the operator to their values. -/
namespace GraphQuery

/-- A condition holds, fails, or is null. -/
inductive Truth where
  | holds
  | fails
  | null
  deriving DecidableEq, Repr

namespace Truth

/-- Fails if one of the two does, whatever the other is. -/
def and : Truth → Truth → Truth
  | fails, _ => fails
  | _, fails => fails
  | holds, holds => holds
  | _, _ => null

/-- Holds if one of the two does, whatever the other is. -/
def or : Truth → Truth → Truth
  | holds, _ => holds
  | _, holds => holds
  | fails, fails => fails
  | _, _ => null

/-- Null if one of the two is. -/
def xor : Truth → Truth → Truth
  | null, _ => null
  | _, null => null
  | holds, holds => fails
  | fails, fails => fails
  | _, _ => holds

def not : Truth → Truth
  | holds => fails
  | fails => holds
  | null => null

end Truth

namespace LogicalOperator

def apply : LogicalOperator → Truth → Truth → Truth
  | .and => Truth.and
  | .or => Truth.or
  | .xor => Truth.xor

/-- The value that changes no other. -/
def neutral : LogicalOperator → Truth
  | .and => .holds
  | .or => .fails
  | .xor => .fails

/-- The values from left to right, starting with the first of them. -/
def fold (op : LogicalOperator) : List Truth → Truth
  | [] => op.neutral
  | x :: xs => xs.foldl op.apply x

variable (op : LogicalOperator) (x y z : Truth)

theorem apply_assoc : op.apply (op.apply x y) z = op.apply x (op.apply y z) := by
  cases op <;> cases x <;> cases y <;> cases z <;> rfl

theorem apply_neutral : op.apply x op.neutral = x := by
  cases op <;> cases x <;> rfl

theorem neutral_apply : op.apply op.neutral x = x := by
  cases op <;> cases x <;> rfl

instance : Std.Associative op.apply := ⟨op.apply_assoc⟩

theorem fold_append (xs ys : List Truth) : op.fold (xs ++ ys) = op.apply (op.fold xs) (op.fold ys) := by
  cases xs with
  | nil => exact (op.neutral_apply _).symm
  | cons x xs =>
    cases ys with
    | nil => rw [List.append_nil, fold, fold, apply_neutral]
    | cons y ys => rw [List.cons_append, fold, List.foldl_append, List.foldl_cons, List.foldl_assoc, fold, fold]

end LogicalOperator

mutual

/-- The value of a condition, given the values of the conditions that are neither compounds nor
negations. A compound has the values of its members, folded from the left. -/
def Condition.value (v : Condition → Truth) : Condition → Truth
  | .comparison a op b => v (.comparison a op b)
  | .test a op after => v (.test a op after)
  | .compound op members => op.fold (valuesOfMembers v members)
  | .not c => (c.value v).not
  | .hasLabels name labels => v (.hasLabels name labels)
termination_by structural x => x

def valuesOfMembers (v : Condition → Truth) : List Condition → List Truth
  | [] => []
  | c :: rest => c.value v :: valuesOfMembers v rest
termination_by structural x => x

end

variable (v : Condition → Truth)

theorem valuesOfMembers_eq_map (cs : List Condition) : valuesOfMembers v cs = cs.map (Condition.value v) := by
  induction cs with
  | nil => rfl
  | cons c cs ih => rw [valuesOfMembers, ih, List.map_cons]

namespace Condition

theorem value_compound (op : LogicalOperator) (members : List Condition) :
    (compound op members).value v = op.fold (members.map (value v)) := by
  rw [value, valuesOfMembers_eq_map]

/-- What a condition brings into a compound has its value. -/
theorem fold_membersFor (op : LogicalOperator) (c : Condition) :
    op.fold ((c.membersFor op).map (value v)) = c.value v := by
  cases c with
  | compound o members =>
    by_cases ho : o = op
    · rw [membersFor, if_pos ho, value_compound, ho]
    · rw [membersFor, if_neg ho]
      rfl
  | comparison a o b | test a o after | not c | hasLabels name labels => rfl

theorem value_compose (op : LogicalOperator) (a b : Condition) :
    (compose op a b).value v = op.apply (a.value v) (b.value v) := by
  rw [compose, value_compound, List.map_append, LogicalOperator.fold_append, fold_membersFor,
    fold_membersFor]

end Condition
end GraphQuery
