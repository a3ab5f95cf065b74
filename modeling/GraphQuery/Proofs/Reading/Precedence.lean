import GraphQuery.Proofs.Reading.Expression

/-! Written arithmetic read back by the precedences of the operators. An operation brings its own
parentheses, and a comparison gets them inside another comparison. A comparison inside an operation gets
none, although it binds less tightly, so only expressions without such comparisons are read back. -/
namespace GraphQuery

namespace Reading

/-- Names and natural numbers with arithmetic and comparisons. -/
inductive Arithmetic : Expression → Prop where
  | name (n : Identifier) : Arithmetic (.variable n)
  | natural (i : Int64) (h : 0 ≤ i.toInt) : Arithmetic (.literal (.integer i))
  | operation {a b : Expression} {op : BinaryOperator} (ha : Arithmetic a) (hb : Arithmetic b)
      (hop : op ∈ [.addition, .subtraction, .multiplication, .division, .modulo, .exponent]) :
      Arithmetic (a.operate op b)
  | comparison {a b : Expression} {op : BinaryOperator} (ha : Arithmetic a) (hb : Arithmetic b)
      (comparison : op.isComparison = true) : Arithmetic (.condition (a.compare op b))

theorem Arithmetic.isLoose_eq {e : Expression} (h : Arithmetic e) : e.isLoose = e.isComparison := by
  cases h <;> rfl

theorem Arithmetic.readable {e : Expression} (h : Arithmetic e) : Readable e := by
  induction h with
  | name n => exact .name n
  | natural i _ => exact .integer i
  | @operation a b op ha hb hop iha ihb =>
    have harith : Operator.binary op ∈ Operator.readable ∧ op.isArithmetic = true := by
      revert op
      decide
    exact .operation iha ihb harith.1 harith.2 ha.isLoose_eq hb.isLoose_eq
  | comparison _ _ hop iha ihb => exact .comparison iha ihb hop

end Reading

open Render.Writer (visitor enclosing?)
open Reading (Arithmetic read)

/-- The text of arithmetic is read by precedence as the expression in which every operation has taken
the operand next to it. This is the expression itself if and only if no comparison is an operand of an
operation. -/
theorem Expression.read_written_iff {e : Expression} (h : Arithmetic e) :
    (∀ (path : List Nat) (ancestors : List Place) (w : Render.Writer), enclosing? ancestors = none →
      w.skipping = false → (visitor.walk path e.tree ancestors w).text =
        (w.separate ancestors).text ++ e.written) ∧
      read e.written = some e.regroup ∧ (read e.written = some e ↔ e.keepsComparisons = true) := by
  have hread := h.readable.read_written
  refine ⟨fun path ancestors w henc hw => h.readable.walk path henc hw, hread, ?_⟩
  rw [hread, Option.some.injEq, h.readable.regroup_eq_iff]

/-- A comparison of two operations is read back. -/
theorem Expression.read_written_iff_product :
    let a : Expression := .variable ⟨"a", by decide +kernel⟩
    let e : Expression := .condition ((a.operate .multiplication (a.operate .addition a)).compare .lessThan
      (.literal (.integer 2)))
    e.written = "(a * (a + a)) < 2" ∧ read e.written = some e := by
  intro a e
  have ha : Arithmetic a := .name _
  have he : Arithmetic e := .comparison (.operation ha (.operation ha ha (by decide)) (by decide))
    (.natural 2 (by decide)) rfl
  exact ⟨by decide +kernel, (Expression.read_written_iff he).2.2.mpr rfl⟩

/-- The sum of a comparison and a name is written without the parentheses that the comparison needs, and
read as the comparison of a name and a sum. -/
theorem Expression.read_written_sum :
    let a : Expression := .variable ⟨"a", by decide +kernel⟩
    let b : Expression := .variable ⟨"b", by decide +kernel⟩
    let c : Expression := .variable ⟨"c", by decide +kernel⟩
    let e : Expression := .operate (.condition (a.compare .equality b)) .addition c
    Arithmetic e ∧ e.written = "(a = b + c)" ∧
      read e.written = some (.condition (a.compare .equality (b.operate .addition c))) ∧
      read e.written ≠ some e := by
  intro a b c e
  have he : Arithmetic e := .operation (.comparison (.name _) (.name _) rfl) (.name _) (by decide)
  have hread : read e.written = some (.condition (a.compare .equality (b.operate .addition c))) :=
    he.readable.read_written
  refine ⟨he, by decide +kernel, hread, fun hself => ?_⟩
  have hkeeps := he.readable.regroup_eq_iff.mp (Option.some.inj (he.readable.read_written.symm.trans hself))
  cases hkeeps

end GraphQuery
