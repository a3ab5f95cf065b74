import GraphQuery.Proofs.Builder.WellFormed
import GraphQuery.Proofs.Render.Expression

/-! Patterns and clauses in writing. The writer writes the tree of a clause as its printer prints
it, with one space behind it unless the clause is a RETURN. -/
namespace GraphQuery.Render.Writer

open Printing (run_pure run_bind)
open SyntaxTree (ofName)

variable {outer : Option Comparator}

section Patterns

theorem typesText_eq {ts : List String} (h : ts.isEmpty = false) :
    typesText ts = RelationshipDetail.typesText ts := by
  cases ts with
  | nil => exact absurd h (by simp)
  | cons t ts =>
    have hmap : ts.map (fun t => "|" ++ Text.quotedName t) =
        (ts.map Text.quotedName).map fun t => "|" ++ t := by simp
    simp only [typesText, RelationshipDetail.typesText, List.isEmpty_cons, Bool.false_eq_true, if_false,
      List.map_cons, Text.intercalate_cons, hmap, String.append_assoc]

theorem lengthText_eq (r : LengthRange) : lengthText r = RelationshipDetail.lengthText (some r) := by
  obtain ⟨_ | a, _ | b⟩ := r <;> rfl

theorem WritesRow.types (ts : List String) :
    WritesRow outer (if ts.isEmpty then [] else [.leaf (.relationshipTypes ts)])
      (pure (RelationshipDetail.typesText ts)) := by
  cases h : ts.isEmpty with
  | true =>
    simp only [if_true, RelationshipDetail.typesText, h]
    exact .nil
  | false =>
    simp only [Bool.false_eq_true, if_false, ← typesText_eq h]
    exact .single (.leaf _ rfl rfl (fun _ _ => rfl) fun _ => rfl)

theorem writes_detail (d : RelationshipDetail) : Writes outer d.tree d.print := by
  have hname : WritesRow none (d.name.toList.map ofName) _ := .optional d.name .name
  have hlength : WritesRow none (d.length.toList.map fun r => .leaf (.relationshipLength r)) _ :=
    .optional (g := lengthText) d.length fun _ => .leaf _ rfl rfl (fun _ _ => rfl) fun _ => rfl
  have hrow := WritesRow.append (((hname.append (.types d.types)).append hlength))
    (writesRow_properties d.properties)
  refine .congr (.branch (d.direction.left ++ "[") ("]" ++ d.direction.right) hrow
    rfl rfl (fun _ _ _ => rfl) fun _ _ => rfl) fun s => ?_
  have htext : (d.length.map lengthText).getD "" = RelationshipDetail.lengthText d.length := by
    cases d.length with
    | none => rfl
    | some r => exact lengthText_eq r
  simp only [RelationshipDetail.print, run_bind, run_pure, htext, String.append_assoc]

theorem writesRow_hop (r : Relationship) : WritesRow outer r.hop r.printHop :=
  .cons (writes_detail r.detail) (.single (writes_node r.right outer))

theorem writesRow_relationships (rs : List Relationship) :
    WritesRow outer ((rs.head?.map fun r => r.left.tree).toList ++ rs.flatMap Relationship.hop)
      (PatternElement.printRelationships rs) := by
  cases rs with
  | nil => exact .nil
  | cons r rs => exact .cons (writes_node r.left outer) (.flatMap (r :: rs) writesRow_hop)

theorem writes_element (e : PatternElement) : Writes outer e.tree e.print := by
  cases e with
  | node n => exact writes_node n outer
  | relationship r =>
    refine .congr (.branch "" "" (writesRow_relationships [r])
      rfl rfl (fun _ _ _ => rfl) fun _ _ => rfl) fun s => ?_
    simp only [PatternElement.print, run_bind, run_pure, String.empty_append, String.append_empty]
    rfl
  | chain c =>
    refine .congr (.branch "" "" (writesRow_relationships c.relationships)
      rfl rfl (fun _ _ _ => rfl) fun _ _ => rfl) fun s => ?_
    simp only [PatternElement.print, run_bind, run_pure, String.empty_append, String.append_empty]
    rfl

theorem writes_pattern (p : Pattern) : Writes outer p.tree p.print := by
  refine .congr (.list "" "" (.map p.elements writes_element)
    rfl rfl rfl (fun _ _ => rfl) fun _ => rfl) fun s => ?_
  simp only [Pattern.print, run_bind, run_pure, String.empty_append, String.append_empty]

end Patterns

section Projections

theorem writes_items (es : List Expression) : Writes outer (Clause.itemsTree es) (Clause.printItems es) := by
  rw [Clause.itemsTree, expressionTrees_eq_map]
  refine .congr (.list "" "" (.map es fun e => (writes_expression e none).plain)
    rfl rfl rfl (fun _ _ => rfl) fun _ => rfl) fun s => ?_
  simp only [Clause.printItems, run_bind, run_pure, String.empty_append, String.append_empty]

theorem writes_sortItem (i : SortItem) : Writes outer i.tree i.print := by
  have hrow : WritesRow none
      (i.expression.tree :: i.direction.toList.map fun d => .leaf (.sortDirection d)) _ :=
    .cons (writes_expression i.expression none).plain (.optional (g := fun d => " " ++ d.symbol) i.direction
      fun _ => .leaf _ rfl rfl (fun _ _ => rfl) fun _ => rfl)
  refine .congr (.branch "" "" hrow rfl rfl (fun _ _ _ => rfl) fun _ _ => rfl) fun s => ?_
  simp only [SortItem.print, run_bind, run_pure, String.empty_append, String.append_empty]

theorem writesRow_order (order : Option (List SortItem)) :
    WritesRow outer (order.toList.map fun items => .branch .order (items.map SortItem.tree))
      (Clause.printOrder order) := by
  cases order with
  | none => exact .nil
  | some items =>
    refine .congr (.single (.list " ORDER BY " "" (.map items writes_sortItem)
      rfl rfl rfl (fun _ _ => rfl) (fun _ => rfl))) fun s => ?_
    simp only [Clause.printOrder, run_bind, run_pure, String.append_empty]

theorem writesRow_filter (filter : Option Condition) :
    WritesRow outer (Clause.filterTrees filter) (Clause.printFilter filter) := by
  cases filter with
  | none => exact .nil
  | some c =>
    refine .congr (.single (.branch " WHERE " "" (.single (writes_condition c none).plainCondition)
      rfl rfl (fun _ _ _ => rfl) (fun _ _ => rfl))) fun s => ?_
    simp only [Clause.printFilter, run_bind, run_pure, String.append_empty]

/-- The body of a projection without its DISTINCT, which its clause writes. -/
theorem writesRow_body (b : Projection) :
    WritesRow outer (Clause.bodyTrees b)
      (do
        let items ← Clause.printItems b.items
        let order ← Clause.printOrder b.order
        return items ++ order ++ Clause.countText " SKIP " b.skip ++ Clause.countText " LIMIT " b.limit) := by
  have hskip : WritesRow outer (b.skip.toList.map fun n => .leaf (.skip n)) _ :=
    .optional (g := fun n => " SKIP " ++ toString n.toNat) b.skip fun _ =>
      .leaf _ rfl rfl (fun _ _ => by simp only [openingText]) fun _ => rfl
  have hlimit : WritesRow outer (b.limit.toList.map fun n => .leaf (.limit n)) _ :=
    .optional (g := fun n => " LIMIT " ++ toString n.toNat) b.limit fun _ =>
      .leaf _ rfl rfl (fun _ _ => by simp only [openingText]) fun _ => rfl
  have hcount : ∀ (keyword : String) (n : Option UInt64),
      (n.map fun n => keyword ++ toString n.toNat).getD "" = Clause.countText keyword n := by
    intro keyword n
    cases n <;> rfl
  have hrow := WritesRow.cons (writes_items b.items) (((writesRow_order b.order).append hskip).append hlimit)
  refine hrow.congr fun s => ?_
  simp only [run_bind, run_pure, hcount, String.append_assoc]

end Projections

end GraphQuery.Render.Writer

namespace GraphQuery

/-- What stands behind a clause while others may follow it. -/
def Clause.trailing : Clause → String
  | .returning _ => ""
  | _ => " "

/-- A clause with what stands behind it. -/
def Clause.printSpaced (c : Clause) : Printing := return (← c.print) ++ c.trailing

/-- The clauses of a query one behind the other. -/
def Query.printSpaced (q : Query) : Printing := return String.join (← q.clauses.mapM Clause.printSpaced)

namespace Render.Writer

open Printing (run_pure run_bind)

variable {outer : Option Comparator}

/-- The writer writes a clause as it is printed, with its space behind it. -/
theorem writes_clause (c : Clause) : Writes outer c.tree c.printSpaced := by
  cases c with
  | matching m =>
    have hrow : WritesRow none (m.pattern.tree :: Clause.filterTrees m.filter) _ :=
      .cons (writes_pattern m.pattern) (writesRow_filter m.filter)
    refine .congr (.branch ((if m.optional then "OPTIONAL " else "") ++ "MATCH ") " " hrow
      rfl rfl (fun _ _ _ => rfl) fun _ _ => rfl) fun s => ?_
    simp only [Clause.printSpaced, Clause.print, Clause.trailing, run_bind, run_pure, String.append_assoc]
  | creating p =>
    refine .congr (.branch "CREATE " " " (.single (writes_pattern p)) rfl rfl (fun _ _ _ => rfl)
      fun _ _ => rfl) fun s => ?_
    rfl
  | merging p =>
    refine .congr (.branch "MERGE " " " (.single (writes_pattern p)) rfl rfl (fun _ _ _ => rfl)
      fun _ _ => rfl) fun s => ?_
    rfl
  | deleting detach es =>
    refine .congr (.branch ((if detach then "DETACH " else "") ++ "DELETE ") " "
      (.single (writes_items es)) rfl rfl (fun _ _ _ => rfl) fun _ _ => rfl) fun s => ?_
    rfl
  | setting es =>
    refine .congr (.branch "SET " " " (.single (writes_items es)) rfl rfl (fun _ _ _ => rfl)
      fun _ _ => rfl) fun s => ?_
    rfl
  | removing es =>
    refine .congr (.branch "REMOVE " " " (.single (writes_items es)) rfl rfl (fun _ _ _ => rfl)
      fun _ _ => rfl) fun s => ?_
    rfl
  | unwinding e name =>
    refine .congr (.branch "UNWIND " (" AS " ++ name.text ++ " ")
      (.single (writes_expression e none).plain) rfl rfl (fun _ _ _ => rfl) fun _ _ => rfl) fun s => ?_
    simp only [Clause.printSpaced, Clause.print, Clause.trailing, run_bind, run_pure, String.append_assoc]
  | passing p =>
    have hrow : WritesRow none (Clause.bodyTrees p.body ++ Clause.filterTrees p.filter) _ :=
      .append (writesRow_body p.body) (writesRow_filter p.filter)
    refine .congr (.branch ("WITH " ++ if p.body.distinct then "DISTINCT " else "") " " hrow
      rfl rfl (fun _ _ _ => rfl) fun _ _ => rfl) fun s => ?_
    simp only [Clause.printSpaced, Clause.print, Clause.printBody, Clause.trailing, run_bind, run_pure,
      String.append_assoc]
  | returning b =>
    refine .congr (.branch ("RETURN " ++ if b.distinct then "DISTINCT " else "") "" (writesRow_body b)
      rfl rfl (fun _ _ _ => rfl) fun _ _ => rfl) fun s => ?_
    simp only [Clause.printSpaced, Clause.print, Clause.printBody, Clause.trailing, run_bind, run_pure,
      String.append_assoc]

/-- The writer writes the clauses of a query one behind the other. -/
theorem writes_query (q : Query) : Writes outer q.tree q.printSpaced := by
  have hrow : WritesRow none (q.clauses.flatMap fun c => [c.tree]) _ :=
    .flatMap q.clauses fun c => .single (writes_clause c)
  rw [← List.map_eq_flatMap] at hrow
  refine .congr (.branch "" "" hrow rfl rfl (fun _ _ _ => rfl) fun _ _ => rfl) fun s => ?_
  simp only [Query.printSpaced, run_bind, run_pure, String.empty_append, String.append_empty]

end Render.Writer
end GraphQuery
