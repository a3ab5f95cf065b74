import GraphQuery.Proofs.Parameter.Table
import GraphQuery.Proofs.Render.Clause
import GraphQuery.Proofs.Text.Ends

/-! The ends of printed text. A clause begins with its keyword, and it ends in a character that is
not blank as long as no property key ends in a blank one. -/
namespace GraphQuery

/-- The table of the state has only registered parameters, under the names assigned to them. -/
def ParameterTable.IsAssigned (stem : String) (reserved : List String) (t : ParameterTable) : Prop :=
  ∃ ps, t.Assigned stem reserved ps

variable {stem : String} {reserved : List String}

theorem ParameterTable.IsAssigned.register {t : ParameterTable} (h : t.IsAssigned stem reserved)
    (p : Parameter) : (t.register p).value.2.IsAssigned stem reserved :=
  let ⟨ps, hps⟩ := h
  ⟨ps ++ [p], (hps.register p).1⟩

/-- Own names end as identifiers do, and generated names end in a digit. -/
theorem ParameterTable.IsAssigned.endsTight {t : ParameterTable} (h : t.IsAssigned stem reserved)
    (p : Parameter) : Text.EndsTight (t.register p).value.1 := by
  obtain ⟨ps, hps⟩ := h
  rw [(hps.register p).2]
  cases p.key with
  | named n => exact Text.endsTight_identifier n
  | anonymous id => exact .append stem (Text.endsTight_toString _)

namespace Render.Writer

section Tables

variable (w : Writer) (c : Construct) {p : Place} {ancestors : List Place}

@[simp] theorem table_separate : (w.separate ancestors).table = w.table :=
  congrArg Printed.table (printed_separate w)

theorem table_accept : (accept p ancestors w).2.table = w.table := by
  unfold accept
  split
  · rfl
  · dsimp only
    split
    · split <;> exact table_separate w
    · exact table_separate w

theorem table_settle : (w.settle c).table = w.table := by
  unfold settle
  split
  · rfl
  · split <;> rfl

theorem table_note : (w.note c).table =
    match c with
    | .parameter p => (w.table.register p).value.2
    | _ => w.table := by
  cases c with
  | node name =>
    cases name with
    | none => rfl
    | some n =>
      unfold note
      dsimp only
      split <;> rfl
  | _ => rfl

/-- What registrations keep of the table, the callbacks of the writer keep. -/
theorem preserves_table {P : ParameterTable → Prop} (h : ∀ t p, P t → P (t.register p).value.2) :
    visitor.Preserves (fun _ => True) fun w => P w.table where
  accept _ _ w hw := table_accept w ▸ hw
  enter p ancestors w _ hw := by
    change P (Writer.note _ _).table
    rw [table_note]
    split
    · exact h _ _ hw
    · exact hw
  leave p ancestors w _ hw := by
    change P (Writer.settle _ _).table
    rw [table_settle]
    exact hw
  afterLeave _ _ _ hw := hw

/-- What registrations keep of the table, the printer of a tree keeps. -/
theorem Writes.keeps {P : ParameterTable → Prop} {t : SyntaxTree} {m : Printing} (hm : Writes none t m)
    (h : ∀ t p, P t → P (t.register p).value.2) {s : Printed} (hs : P s.table) : P (m.run s).2.table := by
  let w : Writer := ⟨"", s.table, s.nodes, s.aliases, false, [], []⟩
  have hwalk := (preserves_table h).walk [] t [] w (fun _ _ => trivial) hs
  have hprinted := (hm [] [] w rfl rfl).printed
  rw [separate_of_not_isSeparated w rfl] at hprinted
  exact congrArg Printed.table hprinted ▸ hwalk

theorem WritesRow.keeps {P : ParameterTable → Prop} {ts : List SyntaxTree} {m : Printing}
    (hm : WritesRow none ts m) (h : ∀ t p, P t → P (t.register p).value.2) {s : Printed} (hs : P s.table) :
    P (m.run s).2.table :=
  (Writes.branch (c := .statement) "" "" hm rfl rfl (fun _ _ _ => rfl) fun _ _ => rfl).keeps h hs

end Tables

end Render.Writer

/-- The key of a property. -/
def Construct.propertyKey? : Construct → Option String
  | .propertyLookup key => some key
  | _ => none

namespace SyntaxTree

/-- The keys of the properties in a tree. -/
def propertyKeys (t : SyntaxTree) : List String := t.constructs.filterMap Construct.propertyKey?

/-- No property key in the tree ends in a blank. -/
def KeysTight (t : SyntaxTree) : Prop := ∀ key ∈ t.propertyKeys, ¬ Text.EndsBlank key

instance (t : SyntaxTree) : Decidable t.KeysTight :=
  List.decidableBAll (fun key => ¬ Text.EndsBlank key) t.propertyKeys

theorem KeysTight.child {c : Construct} {ts : List SyntaxTree} {t : SyntaxTree}
    (h : (branch c ts).KeysTight) (ht : t ∈ ts) : t.KeysTight := fun key hkey => by
  obtain ⟨d, hd, hkey⟩ := List.mem_filterMap.mp hkey
  refine h key (List.mem_filterMap.mpr ⟨d, ?_, hkey⟩)
  rw [constructs_branch]
  exact List.mem_cons_of_mem _ (List.mem_flatMap.mpr ⟨t, ht, hd⟩)

theorem KeysTight.key {key : String} {ts : List SyntaxTree}
    (h : (branch (.propertyLookup key) ts).KeysTight) : ¬ Text.EndsBlank key :=
  h key (List.mem_filterMap.mpr ⟨.propertyLookup key, by simp, rfl⟩)

end SyntaxTree

open Printing (run_pure run_bind run_aliased run_node_none run_node_some)
open Render.Writer
open Text (EndsTight BeginsTight EndsBlank)

theorem endsTight_parenthesized (b : Bool) {t : String} (h : EndsTight t) :
    EndsTight (Printing.parenthesized b t) := by
  cases b with
  | false => exact h
  | true => exact .append _ (by decide)

theorem not_endsBlank_labels (ls : List Label) : ¬ EndsBlank (Printing.labels ls) := by
  obtain rfl | ⟨before, l, rfl⟩ := ls.eq_nil_or_concat'
  · decide
  · refine EndsTight.not_endsBlank ?_
    rw [Printing.labels, List.map_append, String.join_append, List.map_singleton]
    refine .append _ ?_
    rw [String.join_cons, String.join_nil, String.append_empty]
    exact .append ":" (Text.endsTight_quotedName l.text)

theorem endsTight_labelled (n : Identifier) (ls : List Label) : EndsTight (n.text ++ Printing.labels ls) :=
  .append_of_not_endsBlank (Text.endsTight_identifier n) (not_endsBlank_labels ls)

theorem endsTight_node (name : Option Identifier) (body : Printing) (s : Printed) :
    EndsTight ((Printing.node name body).run s).1 := by
  cases name with
  | none =>
    rw [run_node_none]
    exact .append _ (by decide)
  | some n =>
    rw [run_node_some]
    split <;> exact .append _ (by decide)

theorem Node.endsTight_print (n : Node) (s : Printed) : EndsTight (n.print.run s).1 := by
  obtain ⟨name, ls, m⟩ := n
  exact endsTight_node name _ s

mutual

theorem Expression.endsTight_print (e : Expression) (hk : e.tree.KeysTight) {s : Printed}
    (hs : s.table.IsAssigned stem reserved) : EndsTight (e.print.run s).1 := by
  match e with
  | .literal l => exact Text.endsTight_literal l
  | .variable n => exact Text.endsTight_identifier n
  | .parameter p => exact .append "$" (hs.endsTight p)
  | .property e key =>
    simp only [Expression.print, run_bind, run_pure]
    exact .append_of_not_endsBlank (.append _ (by decide)) hk.key
  | .function f es =>
    simp only [Expression.print, run_bind, run_pure]
    exact .append _ (by decide)
  | .operation o => exact o.endsTight_print hk hs
  | .condition c => exact c.endsTight_print hk hs
  | .aliased e name =>
    rw [Expression.print, run_aliased]
    split
    · exact Text.endsTight_identifier name
    · exact .append _ (Text.endsTight_identifier name)
  | .map ⟨entries⟩ =>
    simp only [Expression.print, MapExpression.print, run_bind, run_pure]
    exact .append _ (by decide)
  | .list es =>
    simp only [Expression.print, run_bind, run_pure]
    exact .append _ (by decide)
  | .node n => exact n.endsTight_print s
  | .asterisk => exact (by decide : EndsTight "*")
termination_by structural e

theorem Operation.endsTight_print (o : Operation) (hk : o.tree.KeysTight) {s : Printed}
    (hs : s.table.IsAssigned stem reserved) : EndsTight (o.print.run s).1 := by
  match o with
  | .binary a op b =>
    have ha : (a.print.run s).2.table.IsAssigned stem reserved :=
      (writes_expression a none).plain.keeps (fun _ p h => h.register p) hs
    have hb := b.endsTight_print (hk.child (by simp)) ha
    simp only [Operation.print, run_bind, run_pure]
    exact endsTight_parenthesized _ (.append _ hb)
  | .labels n change ls => exact endsTight_labelled n ls
termination_by structural o

theorem Condition.endsTight_print (c : Condition) (hk : c.tree.KeysTight) {s : Printed}
    (hs : s.table.IsAssigned stem reserved) : EndsTight (c.print.run s).1 := by
  match c with
  | .comparison a op b =>
    have ha : (a.print.run s).2.table.IsAssigned stem reserved :=
      (writes_expression a none).plain.keeps (fun _ p h => h.register p) hs
    have hb := b.endsTight_print (hk.child (by simp)) ha
    simp only [Condition.print, run_bind, run_pure]
    exact .append _ (endsTight_parenthesized _ hb)
  | .test a op after =>
    simp only [Condition.print, run_bind, run_pure]
    refine .append _ ?_
    cases op with
    | not => cases after
    | isNull => decide
    | isNotNull => decide
  | .compound op cs =>
    simp only [Condition.print, run_bind, run_pure]
    exact .append _ (by decide)
  | .not c =>
    simp only [Condition.print, run_bind, run_pure]
    exact .append _ (by decide)
  | .hasLabels n ls => exact endsTight_labelled n ls
termination_by structural c

end

section Patterns

theorem Relationship.endsTight_printHop (r : Relationship) (s : Printed) :
    EndsTight (r.printHop.run s).1 := by
  simp only [Relationship.printHop, run_bind, run_pure]
  exact .append _ (r.right.endsTight_print _)

theorem PatternElement.endsTight_printRelationships {rs : List Relationship} (h : rs ≠ []) (s : Printed) :
    EndsTight ((printRelationships rs).run s).1 := by
  cases rs with
  | nil => exact absurd rfl h
  | cons r rs =>
    simp only [printRelationships, run_bind, run_pure]
    refine .append _ (.join (Printing.mapM_ne_nil _ _ h) ?_)
    exact (Printing.forall_mapM (I := fun _ => True) _
      (fun r _ s _ => ⟨r.endsTight_printHop s, trivial⟩) trivial).1

theorem PatternElement.endsTight_print (e : PatternElement) (s : Printed) : EndsTight (e.print.run s).1 := by
  cases e with
  | node n => exact n.endsTight_print s
  | relationship r => exact endsTight_printRelationships (List.cons_ne_nil r []) s
  | chain c => exact endsTight_printRelationships c.relationships_ne_nil s

theorem Pattern.endsTight_print {p : Pattern} (h : p.elements ≠ []) (s : Printed) :
    EndsTight (p.print.run s).1 := by
  simp only [Pattern.print, run_bind, run_pure]
  refine .intercalate (Printing.mapM_ne_nil _ _ h) ?_
  exact (Printing.forall_mapM (I := fun _ => True) _
    (fun e _ s _ => ⟨e.endsTight_print s, trivial⟩) trivial).1

end Patterns

namespace Clause

variable {s : Printed} (hs : s.table.IsAssigned stem reserved)
include hs

theorem endsTight_printItems {es : List Expression} (hne : es ≠ []) (hk : (itemsTree es).KeysTight) :
    EndsTight ((printItems es).run s).1 := by
  simp only [printItems, run_bind, run_pure]
  refine .intercalate (Printing.mapM_ne_nil _ _ hne) ?_
  refine (Printing.forall_mapM (I := fun s => s.table.IsAssigned stem reserved) _ (fun e he s hs => ?_) hs).1
  have hmem : e.tree ∈ expressionTrees es := by
    rw [expressionTrees_eq_map]
    exact List.mem_map_of_mem he
  exact ⟨e.endsTight_print (hk.child hmem) hs,
    (writes_expression e none).plain.keeps (fun _ p h => h.register p) hs⟩

theorem not_endsBlank_printFilter {filter : Option Condition}
    (hk : ∀ t ∈ filterTrees filter, t.KeysTight) : ¬ EndsBlank ((printFilter filter).run s).1 := by
  cases filter with
  | none => exact (by decide : ¬ EndsBlank "")
  | some c =>
    have hc : c.tree.KeysTight := (hk _ List.mem_cons_self).child List.mem_cons_self
    simp only [printFilter, run_bind, run_pure]
    exact EndsTight.not_endsBlank (.append _ (c.endsTight_print hc hs))

theorem endsTight_printSortItem {i : SortItem} (hk : i.tree.KeysTight) : EndsTight (i.print.run s).1 := by
  have he := i.expression.endsTight_print (hk.child List.mem_cons_self) hs
  simp only [SortItem.print, run_bind, run_pure]
  refine .append_of_not_endsBlank he ?_
  cases i.direction with
  | none => decide
  | some d => cases d <;> decide

theorem not_endsBlank_printOrder {order : Option (List SortItem)} (hne : ∀ items ∈ order, items ≠ [])
    (hk : ∀ items ∈ order, (SyntaxTree.branch .order (items.map SortItem.tree)).KeysTight) :
    ¬ EndsBlank ((printOrder order).run s).1 := by
  cases order with
  | none => exact (by decide : ¬ EndsBlank "")
  | some items =>
    have hk := hk items rfl
    simp only [printOrder, run_bind, run_pure]
    refine EndsTight.not_endsBlank (.append _ (.intercalate (Printing.mapM_ne_nil _ _ (hne items rfl)) ?_))
    refine (Printing.forall_mapM (I := fun s => s.table.IsAssigned stem reserved) _
      (fun i hi s hs => ?_) hs).1
    exact ⟨endsTight_printSortItem hs (hk.child (List.mem_map_of_mem hi)),
      (writes_sortItem i).keeps (fun _ p h => h.register p) hs⟩

omit hs in
theorem not_endsBlank_countText {keyword : String} (count : Option UInt64) :
    ¬ EndsBlank (countText keyword count) := by
  cases count with
  | none => exact (by decide : ¬ EndsBlank "")
  | some n => exact EndsTight.not_endsBlank (.append _ (Text.endsTight_toString n.toNat))

theorem endsTight_printBody {b : Projection} (hb : b.WellFormed) (hk : ∀ t ∈ bodyTrees b, t.KeysTight) :
    EndsTight ((printBody b).run s).1 := by
  have hitems := endsTight_printItems hs hb.items (hk _ List.mem_cons_self)
  have hs' := (writes_items b.items).keeps (fun _ p h => h.register p) hs
  have horder := not_endsBlank_printOrder hs' hb.order fun items hi => hk _ (by
    rw [Option.mem_def] at hi
    simp [bodyTrees, hi])
  simp only [printBody, run_bind, run_pure]
  exact (((EndsTight.append _ hitems).append_of_not_endsBlank horder).append_of_not_endsBlank
    (not_endsBlank_countText b.skip)).append_of_not_endsBlank (not_endsBlank_countText b.limit)

/-- The text of a well-formed clause ends in a character that is not blank. -/
theorem endsTight_print {c : Clause} (hc : c.WellFormed) (hk : c.tree.KeysTight) :
    EndsTight (c.print.run s).1 := by
  cases c with
  | matching m =>
    have hs' := (writes_pattern m.pattern).keeps (fun _ p h => h.register p) hs
    simp only [print, run_bind, run_pure]
    exact .append_of_not_endsBlank (.append _ (m.pattern.endsTight_print hc.nonempty s))
      (not_endsBlank_printFilter hs' fun t ht => hk.child (List.mem_cons_of_mem _ ht))
  | creating p => exact .append _ (p.endsTight_print hc.nonempty s)
  | merging p => exact .append _ (p.endsTight_print hc.nonempty s)
  | deleting detach es => exact .append _ (endsTight_printItems hs hc (hk.child List.mem_cons_self))
  | setting es => exact .append _ (endsTight_printItems hs hc (hk.child List.mem_cons_self))
  | removing es => exact .append _ (endsTight_printItems hs hc (hk.child List.mem_cons_self))
  | unwinding e name => exact .append _ (Text.endsTight_identifier name)
  | passing w =>
    have hrow : WritesRow none (bodyTrees w.body) _ := writesRow_body w.body
    have hs' : ((printBody w.body).run s).2.table.IsAssigned stem reserved := by
      have hs' := hrow.keeps (fun _ p h => h.register p) hs
      simp only [run_bind, run_pure] at hs'
      simpa only [printBody, run_bind, run_pure] using hs'
    have hbody := endsTight_printBody hs hc fun t ht => hk.child (List.mem_append_left _ ht)
    have hfilter := not_endsBlank_printFilter hs' fun t ht => hk.child (List.mem_append_right _ ht)
    simp only [print, run_bind, run_pure]
    exact .append_of_not_endsBlank (.append _ hbody) hfilter
  | returning b => exact .append _ (endsTight_printBody hs hc fun t ht => hk.child ht)

omit hs in
/-- The text of a clause begins with its keyword. -/
theorem beginsTight_print (c : Clause) (s : Printed) : BeginsTight (c.print.run s).1 := by
  cases c with
  | matching m =>
    have hkeyword : BeginsTight ((if m.optional then "OPTIONAL " else "") ++ "MATCH ") := by
      cases m.optional <;> decide
    simp only [print, run_bind, run_pure]
    exact (hkeyword.append _).append _
  | creating p => exact (by decide : BeginsTight "CREATE ").append _
  | merging p => exact (by decide : BeginsTight "MERGE ").append _
  | deleting detach es =>
    have hkeyword : BeginsTight ((if detach then "DETACH " else "") ++ "DELETE ") := by
      cases detach <;> decide
    exact hkeyword.append _
  | setting es => exact (by decide : BeginsTight "SET ").append _
  | removing es => exact (by decide : BeginsTight "REMOVE ").append _
  | unwinding e name =>
    simp only [print, run_bind, run_pure, String.append_assoc]
    exact (by decide : BeginsTight "UNWIND ").append _
  | passing w =>
    simp only [print, run_bind, run_pure, String.append_assoc]
    exact (by decide : BeginsTight "WITH ").append _
  | returning b => exact (by decide : BeginsTight "RETURN ").append _

end Clause

end GraphQuery
