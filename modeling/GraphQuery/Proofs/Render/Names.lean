import GraphQuery.Parameter.Occurrence
import GraphQuery.Proofs.Traversal.Walk
import GraphQuery.Render

/-! The names that are collected from the tree of a statement are those of the parameters that
occur in the statement. The tree of a chain holds a node between two relationships once, so the
parameters of such a node are met once where the statement has them twice. -/
namespace GraphQuery

section Gathering

open Render (addName)

variable (names : List String) (xs ys : List String)

theorem mem_addName {names : List String} {x y : String} : x ∈ addName names y ↔ x ∈ names ∨ x = y := by
  unfold addName
  split
  · next h => exact ⟨.inl, fun hx => hx.elim id fun e => e ▸ h⟩
  · simp

theorem mem_foldl_addName {names xs : List String} {x : String} :
    x ∈ xs.foldl addName names ↔ x ∈ names ∨ x ∈ xs := by
  induction xs generalizing names with
  | nil => simp
  | cons y xs ih => simp only [List.foldl_cons, ih, mem_addName, List.mem_cons, or_assoc]

theorem foldl_addName_of_subset {names xs : List String} (h : ∀ x ∈ xs, x ∈ names) :
    xs.foldl addName names = names := by
  induction xs with
  | nil => rfl
  | cons x xs ih =>
    have hx : addName names x = names := if_pos (h x List.mem_cons_self)
    rw [List.foldl_cons, hx]
    exact ih fun y hy => h y (List.mem_cons_of_mem x hy)

/-- Names that were added once change nothing when they are added again. -/
theorem foldl_addName_again : xs.foldl addName (xs.foldl addName names) = xs.foldl addName names :=
  foldl_addName_of_subset fun _ hx => mem_foldl_addName.mpr (.inr hx)

theorem foldl_addName_eq : xs.foldl addName names = names ++ (xs.filter (· ∉ names)).eraseDups := by
  induction xs generalizing names with
  | nil => simp
  | cons x xs ih =>
    rw [List.foldl_cons, ih, addName]
    by_cases hx : x ∈ names
    · simp only [hx, if_true, List.filter_cons, not_true, decide_false, Bool.false_eq_true, if_false]
    · simp only [hx, if_false, List.filter_cons, not_false_eq_true, decide_true, if_true,
        List.eraseDups_cons, List.append_assoc, List.singleton_append, List.filter_filter]
      congr 3
      refine List.filter_congr fun y _ => ?_
      simp only [List.mem_append, List.mem_singleton, not_or, Bool.decide_and]
      rw [Bool.and_comm]
      congr 1
      by_cases hy : y = x <;> simp [hy]

/-- Added to no names, a list loses its repetitions. -/
theorem foldl_addName_nil : xs.foldl addName [] = xs.eraseDups := by
  rw [foldl_addName_eq, List.nil_append, List.filter_eq_self.mpr fun x _ => by simp]

end Gathering

/-- The parameter that is entered with a construct. -/
def Construct.parameter? : Construct → Option Parameter
  | .parameter p => some p
  | _ => none

namespace SyntaxTree

/-- The parameters in a tree. -/
def parameters (t : SyntaxTree) : List Parameter := t.constructs.filterMap Construct.parameter?

@[simp] theorem parameters_branch (c : Construct) (ts : List SyntaxTree) :
    (branch c ts).parameters = c.parameter?.toList ++ ts.flatMap parameters := by
  have h : ts.flatMap (fun t => t.constructs.filterMap Construct.parameter?) = ts.flatMap parameters := rfl
  cases hc : c.parameter? <;>
    simp [parameters, hc, List.filterMap_flatMap, h]

@[simp] theorem parameters_leaf (c : Construct) : (leaf c).parameters = c.parameter?.toList := by
  simp [leaf]

@[simp] theorem parameters_ofName (n : Identifier) : (ofName n).parameters = [] := by
  simp [ofName, Construct.parameter?]

@[simp] theorem parameters_ofOperator (op : Operator) : (ofOperator op).parameters = [] := by
  simp [ofOperator, Construct.parameter?]

@[simp] theorem flatMap_parameters_ofLabels (ls : List Label) : (ofLabels ls).flatMap parameters = [] := by
  simp [ofLabels, Construct.parameter?]

@[simp] theorem flatMap_parameters_joined (op : Operator) (ts : List SyntaxTree) :
    (joined op ts).flatMap parameters = ts.flatMap parameters := by
  fun_induction joined op ts with
  | case1 => rfl
  | case2 t => rfl
  | case3 t rest _ ih => simp [ih]

end SyntaxTree

open SyntaxTree

mutual

theorem Expression.parameters_tree (e : Expression) : e.tree.parameters = e.parameters := by
  match e with
  | .literal l => rfl
  | .variable n => rfl
  | .parameter p => rfl
  | .property e key =>
    simp [Expression.tree, Expression.parameters, Construct.parameter?, e.parameters_tree]
  | .function f es =>
    simp only [Expression.tree, Expression.parameters, parameters_branch, flatMap_expressionTrees]
    rfl
  | .operation o => exact o.parameters_tree
  | .condition c => exact c.parameters_tree
  | .aliased e name =>
    simp [Expression.tree, Expression.parameters, Construct.parameter?, e.parameters_tree]
  | .map m => exact m.parameters_tree
  | .list es =>
    simp only [Expression.tree, Expression.parameters, parameters_branch, flatMap_expressionTrees]
    rfl
  | .node n => exact n.parameters_tree
  | .asterisk => rfl
termination_by structural e

theorem Operation.parameters_tree (o : Operation) : o.tree.parameters = o.parameters := by
  match o with
  | .binary a op b =>
    simp [Operation.tree, Operation.parameters, Construct.parameter?, a.parameters_tree, b.parameters_tree]
  | .labels n change ls => simp [Operation.tree, Operation.parameters, Construct.parameter?]
termination_by structural o

theorem Condition.parameters_tree (c : Condition) : c.tree.parameters = c.parameters := by
  match c with
  | .comparison a op b =>
    simp [Condition.tree, Condition.parameters, Construct.parameter?, a.parameters_tree, b.parameters_tree]
  | .test a op _ => simp [Condition.tree, Condition.parameters, Construct.parameter?, a.parameters_tree]
  | .compound op cs =>
    simp only [Condition.tree, Condition.parameters, parameters_branch, flatMap_parameters_joined,
      flatMap_conditionTrees]
    rfl
  | .not c => simp [Condition.tree, Condition.parameters, Construct.parameter?, c.parameters_tree]
  | .hasLabels n ls => simp [Condition.tree, Condition.parameters, Construct.parameter?]
termination_by structural c

theorem MapEntry.parameters_tree (e : MapEntry) : e.tree.parameters = e.parameters := by
  match e with
  | ⟨key, e⟩ => simp [MapEntry.tree, MapEntry.parameters, Construct.parameter?, e.parameters_tree]
termination_by structural e

theorem MapExpression.parameters_tree (m : MapExpression) : m.tree.parameters = m.parameters := by
  match m with
  | ⟨entries⟩ =>
    simp only [MapExpression.tree, MapExpression.parameters, parameters_branch, flatMap_entryTrees]
    rfl
termination_by structural m

theorem Node.parameters_tree (n : Node) : n.tree.parameters = n.parameters := by
  match n with
  | ⟨name, ls, m⟩ =>
    have hname : (name.toList.map ofName).flatMap SyntaxTree.parameters = [] := by cases name <;> simp
    simp only [Node.tree, Node.parameters, parameters_branch, List.flatMap_append, hname,
      flatMap_parameters_ofLabels, flatMap_propertyTrees]
    rfl
termination_by structural n

theorem flatMap_expressionTrees (es : List Expression) :
    (expressionTrees es).flatMap SyntaxTree.parameters = parametersOfAll es := by
  match es with
  | [] => rfl
  | e :: rest =>
    rw [expressionTrees, List.flatMap_cons, e.parameters_tree, flatMap_expressionTrees rest, parametersOfAll]
termination_by structural es

theorem flatMap_conditionTrees (cs : List Condition) :
    (conditionTrees cs).flatMap SyntaxTree.parameters = parametersOfMembers cs := by
  match cs with
  | [] => rfl
  | c :: rest =>
    rw [conditionTrees, List.flatMap_cons, c.parameters_tree, flatMap_conditionTrees rest,
      parametersOfMembers]
termination_by structural cs

theorem flatMap_entryTrees (es : List MapEntry) :
    (entryTrees es).flatMap SyntaxTree.parameters = parametersOfEntries es := by
  match es with
  | [] => rfl
  | e :: rest =>
    rw [entryTrees, List.flatMap_cons, e.parameters_tree, flatMap_entryTrees rest, parametersOfEntries]
termination_by structural es

theorem flatMap_propertyTrees (m : Option MapExpression) :
    (propertyTrees m).flatMap SyntaxTree.parameters = parametersOfProperties m := by
  match m with
  | none => rfl
  | some m => simp [propertyTrees, parametersOfProperties, Construct.parameter?, m.parameters_tree]
termination_by structural m

end

/-- The names of the named ones among some parameters, added to names that are known. -/
def gather (names : List String) (ps : List Parameter) : List String :=
  (ps.filterMap fun p => p.name?.map Identifier.text).foldl Render.addName names

theorem gather_append (names : List String) (ps qs : List Parameter) :
    gather names (ps ++ qs) = gather (gather names ps) qs := by
  simp [gather]

theorem gather_again (names : List String) (ps : List Parameter) :
    gather (gather names ps) ps = gather names ps := foldl_addName_again _ _

/-- Lists of parameters that add the same names. -/
def GatherSame (ps qs : List Parameter) : Prop := ∀ names, gather names ps = gather names qs

/-- A relation between lists of parameters that every list has to itself and that goes with appending. -/
structure AppendRelation (R : List Parameter → List Parameter → Prop) : Prop where
  refl : ∀ ps, R ps ps
  append : ∀ {ps qs ps' qs'}, R ps qs → R ps' qs' → R (ps ++ ps') (qs ++ qs')

theorem appendRelation_gatherSame : AppendRelation GatherSame where
  refl _ _ := rfl
  append h h' names := by rw [gather_append, gather_append, h, h']

namespace AppendRelation

variable {R : List Parameter → List Parameter → Prop} (hR : AppendRelation R)
include hR

theorem of_eq {ps qs : List Parameter} (h : ps = qs) : R ps qs := h ▸ hR.refl ps

theorem flatMap {α : Type} {f g : α → List Parameter} (as : List α) (h : ∀ a, R (f a) (g a)) :
    R (as.flatMap f) (as.flatMap g) := by
  induction as with
  | nil => exact hR.refl []
  | cons a as ih => exact hR.append (h a) ih

end AppendRelation

/-- The parameters of a relationship behind its left node. -/
theorem Relationship.flatMap_hop (r : Relationship) :
    r.hop.flatMap SyntaxTree.parameters =
      parametersOfProperties r.detail.properties ++ r.right.parameters := by
  have hd : r.detail.tree.parameters = parametersOfProperties r.detail.properties := by
    have hname : (r.detail.name.toList.map ofName).flatMap SyntaxTree.parameters = [] := by
      cases r.detail.name <;> simp
    have htypes : (if r.detail.types.isEmpty then []
        else [leaf (.relationshipTypes r.detail.types)]).flatMap SyntaxTree.parameters = [] := by
      split <;> simp [Construct.parameter?]
    have hlength : (r.detail.length.toList.map fun l => leaf (.relationshipLength l)).flatMap
        SyntaxTree.parameters = [] := by
      cases r.detail.length <;> simp [Construct.parameter?]
    simp only [RelationshipDetail.tree, parameters_branch, List.flatMap_append, hname, htypes, hlength,
      flatMap_propertyTrees]
    rfl
  simp [Relationship.hop, hd, r.right.parameters_tree]

/-- Hop after hop, a chain holds all its parameters, once the left node of its first relationship
has been met. -/
theorem gather_hops {rs : List Relationship} (h : Relationship.Linked rs) (names : List String)
    (hleft : ∀ r ∈ rs.head?, gather names r.left.parameters = names) :
    gather names ((rs.flatMap Relationship.hop).flatMap SyntaxTree.parameters) =
      gather names (rs.flatMap Relationship.parameters) := by
  induction rs generalizing names with
  | nil => rfl
  | cons r rs ih =>
    have hr : gather names r.parameters = gather names (r.hop.flatMap SyntaxTree.parameters) := by
      rw [Relationship.parameters, List.append_assoc, gather_append, hleft r rfl, r.flatMap_hop]
    rw [List.flatMap_cons, List.flatMap_append, gather_append, List.flatMap_cons, gather_append, hr]
    refine ih h.2 _ fun s hs => ?_
    rw [h.1 s hs, r.flatMap_hop, gather_append, gather_again]

theorem Relationship.parameters_tree (r : Relationship) : r.tree.parameters = r.parameters := by
  simp only [Relationship.tree, Relationship.parameters, parameters_branch, List.flatMap_cons,
    r.left.parameters_tree, r.flatMap_hop, List.append_assoc]
  rfl

/-- The parameters of a chain as its tree holds them, node after node. -/
theorem Chain.parameters_tree {c : Chain} {r : Relationship} {rs : List Relationship} (hc : c.relationships = r :: rs) :
    c.tree.parameters = r.left.parameters ++
      (c.relationships.flatMap Relationship.hop).flatMap SyntaxTree.parameters := by
  simp only [Chain.tree, parameters_branch, hc, List.head?_cons, Option.map_some, Option.toList_some,
    List.flatMap_append, List.flatMap_singleton, r.left.parameters_tree]
  rfl

theorem Chain.gatherSame_tree (c : Chain) :
    GatherSame c.tree.parameters (c.relationships.flatMap Relationship.parameters) := by
  intro names
  obtain ⟨r, rs, hc⟩ := List.exists_cons_of_ne_nil c.relationships_ne_nil
  have hlinked : Relationship.Linked c.relationships := c.linked
  have hops := gather_hops hlinked (gather names r.left.parameters) (by
    rw [hc]
    intro s hs
    obtain rfl : r = s := by simpa using hs
    exact gather_again _ _)
  have hleft : gather (gather names r.left.parameters) (c.relationships.flatMap Relationship.parameters) =
      gather names (c.relationships.flatMap Relationship.parameters) := by
    rw [hc, List.flatMap_cons, Relationship.parameters]
    simp only [List.append_assoc, gather_append, gather_again]
  rw [c.parameters_tree hc, gather_append, hops, hleft]

namespace Clause

theorem parameters_itemsTree (es : List Expression) :
    (itemsTree es).parameters = es.flatMap Expression.parameters := by
  rw [itemsTree, parameters_branch, flatMap_expressionTrees, parametersOfAll_eq_flatMap]
  rfl

theorem flatMap_filterTrees (filter : Option Condition) :
    (filterTrees filter).flatMap SyntaxTree.parameters = parametersOfFilter filter := by
  cases filter with
  | none => rfl
  | some c => simp [filterTrees, parametersOfFilter, Construct.parameter?, c.parameters_tree]

theorem parameters_sortItem (i : SortItem) : i.tree.parameters = i.expression.parameters := by
  cases h : i.direction <;> simp [SortItem.tree, Construct.parameter?, h, i.expression.parameters_tree]

theorem flatMap_bodyTrees (b : Projection) :
    (bodyTrees b).flatMap SyntaxTree.parameters = parametersOfBody b := by
  have horder : (b.order.toList.map fun items => branch .order (items.map SortItem.tree)).flatMap
      SyntaxTree.parameters = (b.order.getD []).flatMap fun item => item.expression.parameters := by
    cases b.order with
    | none => rfl
    | some items => simp [Construct.parameter?, List.flatMap_map, parameters_sortItem]
  have hskip : (b.skip.toList.map fun n => leaf (.skip n)).flatMap SyntaxTree.parameters = [] := by
    cases b.skip <;> simp [Construct.parameter?]
  have hlimit : (b.limit.toList.map fun n => leaf (.limit n)).flatMap SyntaxTree.parameters = [] := by
    cases b.limit <;> simp [Construct.parameter?]
  simp only [bodyTrees, parametersOfBody, List.flatMap_cons, List.flatMap_append, parameters_itemsTree,
    horder, hskip, hlimit, List.append_nil]

end Clause

namespace AppendRelation

variable {R : List Parameter → List Parameter → Prop} (hR : AppendRelation R)
  (hchain : ∀ c : Chain, R c.tree.parameters (c.relationships.flatMap Relationship.parameters))
include hR hchain

theorem element (e : PatternElement) : R e.tree.parameters e.parameters := by
  cases e with
  | node n => exact hR.of_eq n.parameters_tree
  | relationship r => exact hR.of_eq r.parameters_tree
  | chain c => exact hchain c

theorem pattern (p : Pattern) : R p.tree.parameters p.parameters := by
  rw [Pattern.tree, parameters_branch, List.flatMap_map]
  exact hR.flatMap p.elements (hR.element hchain)

theorem clause (c : Clause) : R c.tree.parameters c.parameters := by
  cases c with
  | matching m =>
    simp only [Clause.tree, Clause.parameters, parameters_branch, List.flatMap_cons, Clause.flatMap_filterTrees,
      Construct.parameter?, Option.toList_none, List.nil_append]
    exact hR.append (hR.pattern hchain m.pattern) (hR.refl _)
  | creating p => simpa [Clause.tree, Clause.parameters, Construct.parameter?] using hR.pattern hchain p
  | merging p => simpa [Clause.tree, Clause.parameters, Construct.parameter?] using hR.pattern hchain p
  | deleting detach es =>
    exact hR.of_eq (by simp [Clause.tree, Clause.parameters, Construct.parameter?, Clause.parameters_itemsTree])
  | setting es =>
    exact hR.of_eq (by simp [Clause.tree, Clause.parameters, Construct.parameter?, Clause.parameters_itemsTree])
  | removing es =>
    exact hR.of_eq (by simp [Clause.tree, Clause.parameters, Construct.parameter?, Clause.parameters_itemsTree])
  | unwinding e name =>
    exact hR.of_eq (by simp [Clause.tree, Clause.parameters, Construct.parameter?, e.parameters_tree])
  | passing w =>
    exact hR.of_eq (by simp [Clause.tree, Clause.parameters, Construct.parameter?, Clause.flatMap_bodyTrees,
      Clause.flatMap_filterTrees])
  | returning b =>
    exact hR.of_eq (by simp [Clause.tree, Clause.parameters, Construct.parameter?, Clause.flatMap_bodyTrees])

theorem query (q : Query) : R q.tree.parameters q.parameters := by
  rw [Query.tree, parameters_branch, List.flatMap_map]
  exact hR.flatMap q.clauses (hR.clause hchain)

/-- The tree of a statement holds its parameters as the statement does, but for its chains. -/
theorem statement (s : Statement) : R s.tree.parameters s.parameters := by
  match s with
  | .single q => simpa [Statement.tree, Statement.parameters, Construct.parameter?] using hR.query hchain q
  | .union all [] => exact hR.refl _
  | .union all (q :: rest) =>
    have hrest : (rest.map fun part => branch (.unionPart all) [part.tree]).flatMap SyntaxTree.parameters =
        rest.flatMap fun part => part.tree.parameters := by
      simp [List.flatMap_map, Construct.parameter?]
    simp only [Statement.tree, Statement.parameters, parameters_branch, List.flatMap_cons, hrest,
      Construct.parameter?, Option.toList_none, List.nil_append]
    exact hR.append (hR.query hchain q) (hR.flatMap rest (hR.query hchain))

end AppendRelation

theorem Statement.gatherSame_tree (s : Statement) : GatherSame s.tree.parameters s.parameters :=
  appendRelation_gatherSame.statement Chain.gatherSame_tree s

namespace Render

mutual

/-- The names that a walk adds are those of the parameters in the tree. -/
theorem walk_nameVisitor (path : List Nat) (tree : SyntaxTree) (ancestors : List Place)
    (names : List String) : nameVisitor.walk path tree ancestors names = gather names tree.parameters := by
  match tree with
  | .branch c ts =>
    rw [nameVisitor.walk_of_accepted path ancestors names rfl, parameters_branch, gather_append]
    change nameVisitor.walkAll path 0 ts _ _ = _
    rw [walkAll_nameVisitor]
    congr 1
    cases c with
    | parameter p =>
      cases h : p.name? <;> simp [nameVisitor, SyntaxTree.construct, Construct.parameter?, gather, h]
    | _ => rfl
termination_by structural tree

theorem walkAll_nameVisitor (path : List Nat) (index : Nat) (trees : List SyntaxTree)
    (ancestors : List Place) (names : List String) :
    nameVisitor.walkAll path index trees ancestors names =
      gather names (trees.flatMap SyntaxTree.parameters) := by
  match trees with
  | [] => rfl
  | t :: rest =>
    rw [Visitor.walkAll_cons, walkAll_nameVisitor, walk_nameVisitor, List.flatMap_cons, gather_append]
termination_by structural trees

end

/-- The names collected before a statement is written are the names of its parameters. -/
theorem state_namesIn (s : Statement) : (namesIn s.tree).state = s.parameterNames := by
  rw [namesIn, Traversal.ofTree_eq_walk, walk_nameVisitor, s.gatherSame_tree]
  exact foldl_addName_nil _

end Render
end GraphQuery
