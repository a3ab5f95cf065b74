import GraphQuery.Proofs.Outcome
import GraphQuery.Statement

/-! Unions of unions. However queries are bracketed, the union of unions of its own kind is the union of the
queries in their order; a union of the other kind is refused. -/
namespace GraphQuery

namespace Statement

/-- The queries of a statement. -/
def queries : Statement → List Query
  | single q => [q]
  | union _ parts => parts

/-- A union of the other kind. -/
def IsOther (all : Bool) (s : Statement) : Prop := ∃ parts, s = .union (!all) parts

variable {all : Bool} {ss : List Statement}

/-- A statement brings its queries into a union, unless it is a union of the other kind. -/
theorem partsFor_eq (all : Bool) (s : Statement) : s.IsOther all ∧ s.partsFor all = .error .unionsMixed ∨
    ¬ s.IsOther all ∧ s.partsFor all = .ok s.queries := by
  cases s with
  | single q => exact .inr ⟨nofun, rfl⟩
  | union kind parts =>
    rw [partsFor]
    by_cases h : kind = all
    · refine .inr ⟨?_, if_pos h⟩
      rintro ⟨_, hother⟩
      cases h
      simp at hother
    · exact .inl ⟨⟨parts, by rw [Bool.eq_not.mpr h]⟩, if_neg h⟩

theorem joinParts_eq (all : Bool) (ss : List Statement) :
    (∃ s ∈ ss, s.IsOther all) ∧ joinParts all ss = .error .unionsMixed ∨
    (∀ s ∈ ss, ¬ s.IsOther all) ∧ joinParts all ss = .ok (ss.flatMap queries) := by
  induction ss with
  | nil => exact .inr ⟨nofun, rfl⟩
  | cons s ss ih =>
    rw [joinParts]
    obtain ⟨hs, hparts⟩ | ⟨hs, hparts⟩ := partsFor_eq all s
    · exact .inl ⟨⟨s, List.mem_cons_self, hs⟩, by rw [hparts]; rfl⟩
    · obtain ⟨⟨t, ht, hother⟩, hrest⟩ | ⟨hss, hrest⟩ := ih
      · exact .inl ⟨⟨t, List.mem_cons_of_mem s ht, hother⟩, by rw [hparts, hrest]; rfl⟩
      · exact .inr ⟨List.forall_mem_cons.mpr ⟨hs, hss⟩, by rw [hparts, hrest]; rfl⟩

/-- At least two statements, and no union of the other kind among them. -/
theorem unionOf_eq_ok_iff {s : Statement} : unionOf all ss = .ok s ↔
    2 ≤ ss.length ∧ (∀ t ∈ ss, ¬ t.IsOther all) ∧ s = .union all (ss.flatMap queries) := by
  unfold unionOf
  by_cases hlength : ss.length < 2
  · rw [if_pos hlength]
    exact ⟨nofun, fun h => absurd h.1 (Nat.not_le.mpr hlength)⟩
  · rw [if_neg hlength]
    obtain ⟨⟨t, ht, hother⟩, hparts⟩ | ⟨hss, hparts⟩ := joinParts_eq all ss
    · rw [hparts]
      exact ⟨nofun, fun h => absurd hother (h.2.1 t ht)⟩
    · rw [hparts]
      constructor
      · rintro ⟨⟩
        exact ⟨Nat.not_lt.mp hlength, hss, rfl⟩
      · rintro ⟨-, -, rfl⟩
        rfl

theorem unionOf_single {qs : List Query} (two : 2 ≤ qs.length) :
    unionOf all (qs.map single) = .ok (.union all qs) := by
  refine unionOf_eq_ok_iff.mpr ⟨by rwa [List.length_map], ?_, ?_⟩
  · intro s hs
    obtain ⟨q, -, rfl⟩ := List.mem_map.mp hs
    exact nofun
  · rw [List.flatMap_map]
    exact congrArg _ (List.flatMap_singleton' qs).symm

/-- The number of the statements is looked at first. -/
theorem unionOf_eq_error_iff {e : ArgumentError} : unionOf all ss = .error e ↔
    ss.length < 2 ∧ e = .statementsMissing ∨
    2 ≤ ss.length ∧ (∃ t ∈ ss, t.IsOther all) ∧ e = .unionsMixed := by
  unfold unionOf
  by_cases hlength : ss.length < 2
  · rw [if_pos hlength]
    constructor
    · rintro ⟨⟩
      exact .inl ⟨hlength, rfl⟩
    · rintro (⟨-, rfl⟩ | ⟨htwo, -⟩)
      · rfl
      · exact absurd htwo (Nat.not_le.mpr hlength)
  · rw [if_neg hlength]
    obtain ⟨hother, hparts⟩ | ⟨hss, hparts⟩ := joinParts_eq all ss
    · rw [hparts]
      constructor
      · rintro ⟨⟩
        exact .inr ⟨Nat.not_lt.mp hlength, hother, rfl⟩
      · rintro (⟨hshort, -⟩ | ⟨-, -, rfl⟩)
        · exact absurd hshort hlength
        · rfl
    · rw [hparts]
      constructor
      · rintro ⟨⟩
      · rintro (⟨hshort, -⟩ | ⟨-, ⟨t, ht, hother⟩, -⟩)
        · exact absurd hshort hlength
        · exact absurd hother (hss t ht)

end Statement

/-- Queries that are bracketed by unions of one kind, each of at least two statements. -/
inductive Bracketing where
  | query (q : Query)
  | union (first second : Bracketing) (others : List Bracketing)

namespace Bracketing

mutual

/-- The statement that comes of making the unions from the inside to the outside. -/
def statement (all : Bool) : Bracketing → Except ArgumentError Statement
  | query q => .ok (.single q)
  | union first second others => do
    Statement.unionOf all ((← first.statement all) :: (← second.statement all) :: (← statements all others))
termination_by structural x => x

def statements (all : Bool) : List Bracketing → Except ArgumentError (List Statement)
  | [] => .ok []
  | t :: rest => do return (← t.statement all) :: (← statements all rest)
termination_by structural x => x

end

mutual

/-- The queries from left to right. -/
def leaves : Bracketing → List Query
  | query q => [q]
  | union first second others => first.leaves ++ (second.leaves ++ leavesOfAll others)
termination_by structural x => x

def leavesOfAll : List Bracketing → List Query
  | [] => []
  | t :: rest => t.leaves ++ leavesOfAll rest
termination_by structural x => x

end

/-- The statement without the brackets. -/
def flattened (all : Bool) : Bracketing → Statement
  | query q => .single q
  | union first second others => .union all (union first second others).leaves

variable (all : Bool)

@[simp] theorem queries_flattened (t : Bracketing) : (t.flattened all).queries = t.leaves := by
  cases t <;> simp [flattened, Statement.queries, leaves]

theorem not_isOther_flattened (t : Bracketing) : ¬ (t.flattened all).IsOther all := by
  rintro ⟨parts, h⟩
  cases t <;> simp [flattened] at h

theorem leavesOfAll_eq_flatMap (ts : List Bracketing) :
    leavesOfAll ts = (ts.map (flattened all)).flatMap Statement.queries := by
  induction ts with
  | nil => rfl
  | cons t ts ih => simp [leavesOfAll, ih]

mutual

/-- Brackets make no difference. -/
theorem statement_eq (t : Bracketing) : t.statement all = .ok (t.flattened all) := by
  match t with
  | query q => rfl
  | union first second others =>
    rw [statement, statement_eq first, statement_eq second, statements_eq others]
    change Statement.unionOf all (first.flattened all :: second.flattened all :: others.map (flattened all)) = _
    refine Statement.unionOf_eq_ok_iff.mpr ⟨by simp, ?_, ?_⟩
    · simp only [List.mem_cons, List.mem_map]
      rintro s (rfl | rfl | ⟨t, -, rfl⟩) <;> exact not_isOther_flattened all _
    · rw [flattened, leaves, leavesOfAll_eq_flatMap all, List.flatMap_cons, List.flatMap_cons, queries_flattened,
        queries_flattened]
termination_by structural t

theorem statements_eq (ts : List Bracketing) : statements all ts = .ok (ts.map (flattened all)) := by
  match ts with
  | [] => rfl
  | t :: rest =>
    rw [statements, statement_eq t, statements_eq rest]
    rfl
termination_by structural ts

end

theorem leaves_ne_nil (t : Bracketing) : t.leaves ≠ [] := by
  match t with
  | query q => exact List.cons_ne_nil q []
  | union first second others =>
    rw [leaves]
    exact List.append_ne_nil_of_left_ne_nil (leaves_ne_nil first) _
termination_by structural t

/-- With one query there are no brackets. -/
theorem eq_query_of_leaves {t : Bracketing} {q : Query} (h : t.leaves = [q]) : t = query q := by
  cases t with
  | query p => simpa [leaves] using h
  | union first second others =>
    exfalso
    have hfirst := List.length_pos_iff.mpr first.leaves_ne_nil
    have hsecond := List.length_pos_iff.mpr second.leaves_ne_nil
    have hlength := congrArg List.length h
    simp only [leaves, List.length_append, List.length_singleton] at hlength
    omega

theorem flattened_congr {t u : Bracketing} (h : t.leaves = u.leaves) : t.flattened all = u.flattened all := by
  cases t with
  | query q => rw [eq_query_of_leaves (t := u) h.symm]
  | union first second others =>
    cases u with
    | query q => rw [eq_query_of_leaves h]
    | union => rw [flattened, flattened, h]

end Bracketing

namespace Statement

/-- Unions of one kind in one another are one union of the queries from left to right, whatever the brackets. What
a union refuses are fewer than two statements, and otherwise unions of the other kind. -/
theorem unionOf_flattens (all : Bool) :
    (∀ first second others, (Bracketing.union first second others).statement all =
      .ok (.union all (Bracketing.union first second others).leaves)) ∧
    (∀ t u : Bracketing, t.leaves = u.leaves → t.statement all = u.statement all) ∧
    (∀ ss s, unionOf all ss = .ok s ↔
      2 ≤ ss.length ∧ (∀ t ∈ ss, ¬ t.IsOther all) ∧ s = .union all (ss.flatMap queries)) ∧
    (∀ ss e, unionOf all ss = .error e ↔
      ss.length < 2 ∧ e = .statementsMissing ∨ 2 ≤ ss.length ∧ (∃ t ∈ ss, t.IsOther all) ∧ e = .unionsMixed) ∧
    ArgumentError.statementsMissing.message = "At least two statements are required!" ∧
    ArgumentError.unionsMixed.message = "Cannot mix union and union all!" := by
  refine ⟨fun first second others => Bracketing.statement_eq all _, fun t u h => ?_, fun _ _ => unionOf_eq_ok_iff,
    fun _ _ => unionOf_eq_error_iff, rfl, rfl⟩
  rw [Bracketing.statement_eq, Bracketing.statement_eq, Bracketing.flattened_congr all h]

/-- Three queries, bracketed from the left and from the right. -/
theorem unionOf_flattens_three :
    let p : Query := ⟨[.returning (.new false [.asterisk])]⟩
    let q : Query := ⟨[.returning (.new true [.literal .null])]⟩
    let left := Bracketing.union (.union (.query p) (.query q) []) (.query p) []
    let right := Bracketing.union (.query p) (.union (.query q) (.query p) []) []
    left.leaves = right.leaves ∧ left.statement true = right.statement true := by
  intro p q left right
  exact ⟨rfl, (unionOf_flattens true).2.1 left right rfl⟩

end Statement
end GraphQuery
