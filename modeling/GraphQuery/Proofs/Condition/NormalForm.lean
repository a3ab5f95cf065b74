import GraphQuery.Condition

/-! The normal form of composed conditions. A chain of one connective is a single compound of all its
links, and this holds at every depth, inside the operands of comparisons as well. -/
namespace GraphQuery

mutual

/-- The conditions inside an expression, each of them before those inside it. -/
def Expression.conditions : Expression → List Condition
  | .literal _ => []
  | .variable _ => []
  | .parameter _ => []
  | .property e _ => e.conditions
  | .function _ es => conditionsOfAll es
  | .operation o => o.conditions
  | .condition c => c.conditions
  | .aliased e _ => e.conditions
  | .map m => m.conditions
  | .list es => conditionsOfAll es
  | .node n => n.conditions
  | .asterisk => []
termination_by structural x => x

def Operation.conditions : Operation → List Condition
  | .binary a _ b => a.conditions ++ b.conditions
  | .labels .. => []
termination_by structural x => x

/-- A condition and the conditions inside it. -/
def Condition.conditions : Condition → List Condition
  | .comparison a op b => .comparison a op b :: (a.conditions ++ b.conditions)
  | .test a op after => .test a op after :: a.conditions
  | .compound op members => .compound op members :: conditionsOfMembers members
  | .not c => .not c :: c.conditions
  | .hasLabels name labels => [.hasLabels name labels]
termination_by structural x => x

def MapEntry.conditions : MapEntry → List Condition
  | ⟨_, e⟩ => e.conditions
termination_by structural x => x

def MapExpression.conditions : MapExpression → List Condition
  | ⟨entries⟩ => conditionsOfEntries entries
termination_by structural x => x

def Node.conditions : Node → List Condition
  | ⟨_, _, m⟩ => conditionsOfProperties m
termination_by structural x => x

def conditionsOfAll : List Expression → List Condition
  | [] => []
  | e :: rest => e.conditions ++ conditionsOfAll rest
termination_by structural x => x

def conditionsOfMembers : List Condition → List Condition
  | [] => []
  | c :: rest => c.conditions ++ conditionsOfMembers rest
termination_by structural x => x

def conditionsOfEntries : List MapEntry → List Condition
  | [] => []
  | e :: rest => e.conditions ++ conditionsOfEntries rest
termination_by structural x => x

def conditionsOfProperties : Option MapExpression → List Condition
  | none => []
  | some m => m.conditions
termination_by structural x => x

end

theorem conditionsOfMembers_eq_flatMap (cs : List Condition) :
    conditionsOfMembers cs = cs.flatMap Condition.conditions := by
  induction cs with
  | nil => rfl
  | cons c cs ih => rw [conditionsOfMembers, ih, List.flatMap_cons]

namespace Condition

/-- What comparisons, tests, label predicates and the connectives make. Conditions may stand in the
operands of a comparison, and these are made in the same way. -/
inductive Composed : Condition → Prop where
  | comparison {a b : Expression} (op : BinaryOperator) (left : ∀ c ∈ a.conditions, Composed c)
      (right : ∀ c ∈ b.conditions, Composed c) : Composed (.comparison a op b)
  | test {a : Expression} {op : UnaryOperator} (after : op.placement = .after)
      (operand : ∀ c ∈ a.conditions, Composed c) : Composed (.test a op after)
  | hasLabels (name : Identifier) (labels : List Label) : Composed (.hasLabels name labels)
  | compose (op : LogicalOperator) {a b : Condition} (left : Composed a) (right : Composed b) :
      Composed (compose op a b)
  | not {a : Condition} (inner : Composed a) : Composed (.not a)

/-- A compound has at least two members, and none of them is a compound of the same operator. -/
def IsNormal : Condition → Prop
  | .compound op members => 2 ≤ members.length ∧ ∀ c ∈ members, ∀ inner, c ≠ .compound op inner
  | _ => True

section Members

variable {op : LogicalOperator} {c : Condition}

theorem membersFor_eq_self (h : ∀ members, c ≠ .compound op members) : c.membersFor op = [c] := by
  cases c with
  | compound o members =>
    have ho : o ≠ op := by
      rintro rfl
      exact h members rfl
    rw [membersFor, if_neg ho]
  | comparison a o b | test a o after | not c | hasLabels name labels => rfl

/-- What a condition brings into a compound is inside it. -/
theorem conditions_membersFor {d : Condition} (h : d ∈ (c.membersFor op).flatMap conditions) :
    d ∈ c.conditions := by
  by_cases hc : ∃ members, c = .compound op members
  · obtain ⟨members, rfl⟩ := hc
    rw [membersFor, if_pos rfl, ← conditionsOfMembers_eq_flatMap] at h
    exact List.mem_cons_of_mem _ h
  · rw [membersFor_eq_self fun members he => hc ⟨members, he⟩] at h
    simpa using h

/-- A normal condition brings at least one member into a compound, and none that is a compound of the
operator itself. -/
theorem IsNormal.membersFor (h : c.IsNormal) (op : LogicalOperator) :
    1 ≤ (c.membersFor op).length ∧ ∀ d ∈ c.membersFor op, ∀ inner, d ≠ .compound op inner := by
  by_cases hc : ∃ members, c = .compound op members
  · obtain ⟨members, rfl⟩ := hc
    rw [Condition.membersFor, if_pos rfl]
    exact ⟨Nat.le_of_succ_le h.1, h.2⟩
  · have hne : ∀ members, c ≠ .compound op members := fun members he => hc ⟨members, he⟩
    rw [membersFor_eq_self hne]
    exact ⟨Nat.le_refl 1, List.forall_mem_singleton.mpr hne⟩

end Members

namespace Composed

variable {c : Condition}

theorem isNormal (h : c.Composed) : c.IsNormal := by
  induction h with
  | comparison op left right _ _ => trivial
  | test after operand _ => trivial
  | hasLabels name labels => trivial
  | @compose op a b left right iha ihb =>
    obtain ⟨hlen, hflat⟩ := iha.membersFor op
    obtain ⟨hlen', hflat'⟩ := ihb.membersFor op
    refine ⟨?_, List.forall_mem_append.mpr ⟨hflat, hflat'⟩⟩
    rw [List.length_append]
    omega
  | not inner _ => trivial

/-- What is inside a composed condition has been composed before. A compound takes in the members of
its operands, so nothing inside it is new but the compound itself. -/
theorem of_mem_conditions (h : c.Composed) : ∀ d ∈ c.conditions, d.Composed := by
  induction h with
  | comparison op left right _ _ =>
    intro d hd
    obtain rfl | hd := List.mem_cons.mp hd
    · exact .comparison op left right
    · exact (List.mem_append.mp hd).elim (left d) (right d)
  | test after operand _ =>
    intro d hd
    obtain rfl | hd := List.mem_cons.mp hd
    · exact .test after operand
    · exact operand d hd
  | hasLabels name labels =>
    intro d hd
    obtain rfl := List.mem_singleton.mp hd
    exact .hasLabels name labels
  | compose op left right iha ihb =>
    intro d hd
    obtain rfl | hd := List.mem_cons.mp hd
    · exact .compose op left right
    · rw [conditionsOfMembers_eq_flatMap, List.flatMap_append] at hd
      obtain hd | hd := List.mem_append.mp hd
      · exact iha d (conditions_membersFor hd)
      · exact ihb d (conditions_membersFor hd)
  | not inner ih =>
    intro d hd
    obtain rfl | hd := List.mem_cons.mp hd
    · exact .not inner
    · exact ih d hd

end Composed
end Condition
end GraphQuery
