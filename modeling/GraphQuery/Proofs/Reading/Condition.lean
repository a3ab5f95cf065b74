import GraphQuery.Proofs.Builder.WellFormed
import GraphQuery.Proofs.Reading.Expression

/-! Written conditions read back. Whatever way conditions are built from names, numbers and strings, the
text tells them apart. -/
namespace GraphQuery

namespace Condition

theorem keepsComparisons_members (c : Condition) (op : LogicalOperator) :
    (∀ d ∈ c.membersFor op, d.keepsComparisons = true) ↔ c.keepsComparisons = true := by
  cases c with
  | compound o members =>
    by_cases ho : o = op
    · rw [membersFor, if_pos ho]
      exact (keepAllComparisons_iff members).symm
    · rw [membersFor, if_neg ho, List.forall_mem_singleton]
  | comparison a o b | test a o after | not c | hasLabels n ls => exact List.forall_mem_singleton

theorem keepsComparisons_compose {c d : Condition} (op : LogicalOperator) (hc : c.keepsComparisons = true)
    (hd : d.keepsComparisons = true) : (c.compose op d).keepsComparisons = true := by
  refine (keepAllComparisons_iff _).mpr (List.forall_mem_append.mpr ⟨?_, ?_⟩)
  · exact (c.keepsComparisons_members op).mpr hc
  · exact (d.keepsComparisons_members op).mpr hd

end Condition

namespace Reading

/-- Names, numbers, strings, and the conditions that are built from them. -/
inductive Logical : Expression → Prop where
  | name (n : Identifier) : Logical (.variable n)
  | integer (i : Int64) : Logical (.literal (.integer i))
  | string (s : String) : Logical (.literal (.string s))
  | comparison {a b : Expression} {op : BinaryOperator} (ha : Logical a) (hb : Logical b)
      (comparison : op.isComparison = true) : Logical (.condition (a.compare op b))
  | isNull {a : Expression} (ha : Logical a) : Logical (.condition a.isNull)
  | isNotNull {a : Expression} (ha : Logical a) : Logical (.condition a.isNotNull)
  | and {c d : Condition} (hc : Logical (.condition c)) (hd : Logical (.condition d)) :
      Logical (.condition (c.and d))
  | or {c d : Condition} (hc : Logical (.condition c)) (hd : Logical (.condition d)) :
      Logical (.condition (c.or d))
  | xor {c d : Condition} (hc : Logical (.condition c)) (hd : Logical (.condition d)) :
      Logical (.condition (c.xor d))
  | not {c : Condition} (hc : Logical (.condition c)) : Logical (.condition (.not c))
  | withLabels {n : Identifier} {labels : List String} {c : Condition}
      (h : Condition.withLabels n labels = .ok c) : Logical (.condition c)

/-- What a condition brings into a compound. -/
theorem Readable.members {c : Condition} (h : Readable (.condition c)) (op : LogicalOperator) :
    c.membersFor op ≠ [] ∧
      ∀ d ∈ c.membersFor op, Readable (.condition d) ∧ d.membersFor op = [d] := by
  have hself (hm : c.membersFor op = [c]) : c.membersFor op ≠ [] ∧
      ∀ d ∈ c.membersFor op, Readable (.condition d) ∧ d.membersFor op = [d] := by
    rw [hm]
    exact ⟨List.cons_ne_nil _ _, List.forall_mem_singleton.mpr ⟨h, hm⟩⟩
  cases h with
  | comparison | test | not | hasLabels => exact hself rfl
  | @compound o e es hne members flat =>
    by_cases ho : o = op
    · rw [Condition.membersFor, if_pos ho]
      exact ⟨List.cons_ne_nil _ _, fun d hd => ⟨members d hd, ho ▸ flat d hd⟩⟩
    · exact hself (if_neg ho)

/-- Compounds of conditions have their members in a row. -/
theorem Readable.compose {c d : Condition} (hc : Readable (.condition c)) (hd : Readable (.condition d))
    (op : LogicalOperator) : Readable (.condition (c.compose op d)) := by
  obtain ⟨hne, hleft⟩ := hc.members op
  obtain ⟨hne', hright⟩ := hd.members op
  have hall : ∀ e ∈ c.membersFor op ++ d.membersFor op, Readable (.condition e) ∧ e.membersFor op = [e] :=
    List.forall_mem_append.mpr ⟨hleft, hright⟩
  rw [Condition.compose]
  obtain ⟨e, es, hes⟩ := List.exists_cons_of_ne_nil hne
  rw [hes, List.cons_append] at hall ⊢
  exact .compound (by simp [hne']) (fun x hx => (hall x hx).1) fun x hx => (hall x hx).2

theorem Logical.readable {e : Expression} (h : Logical e) : Readable e := by
  induction h with
  | name n => exact .name n
  | integer i => exact .integer i
  | string s => exact .string s
  | comparison _ _ hop iha ihb => exact .comparison iha ihb hop
  | isNull _ ih => exact .test ih rfl
  | isNotNull _ ih => exact .test ih rfl
  | and _ _ ihc ihd => exact ihc.compose ihd .and
  | or _ _ ihc ihd => exact ihc.compose ihd .or
  | xor _ _ ihc ihd => exact ihc.compose ihd .xor
  | not _ ih => exact .not ih
  | withLabels h =>
    obtain ⟨ls, hls, rfl⟩ := Outcome.map_eq_ok_iff.mp h
    exact .hasLabels _ (Label.ofStrings_eq_ok_iff.mp hls).1

/-- A condition that is built without operations gives no comparison to one. -/
theorem Logical.keepsComparisons {e : Expression} (h : Logical e) : e.keepsComparisons = true := by
  induction h with
  | name n | integer i | string s => rfl
  | comparison _ _ _ iha ihb => exact Bool.and_eq_true_iff.mpr ⟨iha, ihb⟩
  | isNull _ ih | isNotNull _ ih | not _ ih => exact ih
  | and _ _ ihc ihd => exact Condition.keepsComparisons_compose .and ihc ihd
  | or _ _ ihc ihd => exact Condition.keepsComparisons_compose .or ihc ihd
  | xor _ _ ihc ihd => exact Condition.keepsComparisons_compose .xor ihc ihd
  | withLabels h =>
    obtain ⟨ls, -, rfl⟩ := Outcome.map_eq_ok_iff.mp h
    rfl

theorem Logical.read_written {e : Expression} (h : Logical e) : read e.written = some e :=
  h.readable.read_written.trans (congrArg some (h.readable.regroup_eq_iff.mpr h.keepsComparisons))

end Reading

open Render.Writer (visitor enclosing?)
open Reading (Logical read)

/-- The text of a condition is unambiguous. It is the same wherever the condition is written outside of
a comparison, the reader takes it for this condition, and no other condition has it. -/
theorem Condition.written_unambiguous {c : Condition} (h : Logical (.condition c)) :
    (∀ (path : List Nat) (ancestors : List Place) (w : Render.Writer), enclosing? ancestors = none →
      w.skipping = false → (visitor.walk path c.tree ancestors w).text =
        (w.separate ancestors).text ++ (Expression.condition c).written) ∧
      read (Expression.condition c).written = some (.condition c) ∧
      ∀ d, Logical (.condition d) → (Expression.condition d).written = (Expression.condition c).written →
        d = c := by
  refine ⟨fun path ancestors w henc hw => h.readable.walk path henc hw, h.read_written, fun d hd htext => ?_⟩
  have hread := hd.read_written
  rw [htext, h.read_written] at hread
  exact (Expression.condition.inj (Option.some.inj hread)).symm

/-- Keywords in the places of names, a negated compound and a comparison of comparisons. -/
theorem Condition.written_unambiguous_keywords :
    let n : Expression := .variable ⟨"NOT", by decide +kernel⟩
    let inner : Condition := n.compare .equality (.literal (.integer (-1)))
    let c : Condition := .or (.and (n.compare .within (.variable ⟨"IN", by decide +kernel⟩)) n.isNull)
      (.not ((Expression.condition inner).compare .startsWith (.literal (.string ") AND ("))))
    (Expression.condition c).written =
        "((NOT IN IN AND NOT IS NULL) OR NOT ((NOT = -1) STARTS WITH ') AND ('))" ∧
      read (Expression.condition c).written = some (.condition c) := by
  intro n inner c
  have hn : Logical n := .name _
  have hc : Logical (.condition c) := .or (.and (.comparison hn (.name _) rfl) (.isNull hn))
    (.not (.comparison (.comparison hn (.integer _) rfl) (.string _) rfl))
  refine ⟨by decide +kernel, (Condition.written_unambiguous hc).2.1⟩

end GraphQuery
