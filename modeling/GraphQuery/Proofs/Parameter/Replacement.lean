import GraphQuery.Proofs.Render.Names

/-! Statements with other parameters in the places of their own. Replacing parameters leaves the tree of
a statement as it is, but for its parameters, and it leaves equal what was equal, as long as it does so
with the parameters themselves. -/
namespace GraphQuery

variable (f : Parameter → Parameter)

mutual

/-- The expression with other parameters. -/
def Expression.mapParameters : Expression → Expression
  | .literal l => .literal l
  | .variable n => .variable n
  | .parameter p => .parameter (f p)
  | .property e key => .property e.mapParameters key
  | .function g es => .function g (mapParametersOfAll es)
  | .operation o => .operation o.mapParameters
  | .condition c => .condition c.mapParameters
  | .aliased e name => .aliased e.mapParameters name
  | .map m => .map m.mapParameters
  | .list es => .list (mapParametersOfAll es)
  | .node n => .node n.mapParameters
  | .asterisk => .asterisk
termination_by structural x => x

def Operation.mapParameters : Operation → Operation
  | .binary a op b => .binary a.mapParameters op b.mapParameters
  | .labels n change ls => .labels n change ls
termination_by structural x => x

def Condition.mapParameters : Condition → Condition
  | .comparison a op b => .comparison a.mapParameters op b.mapParameters
  | .test a op after => .test a.mapParameters op after
  | .compound op cs => .compound op (mapParametersOfMembers cs)
  | .not c => .not c.mapParameters
  | .hasLabels n ls => .hasLabels n ls
termination_by structural x => x

def MapEntry.mapParameters : MapEntry → MapEntry
  | ⟨key, e⟩ => ⟨key, e.mapParameters⟩
termination_by structural x => x

def MapExpression.mapParameters : MapExpression → MapExpression
  | ⟨entries⟩ => ⟨mapParametersOfEntries entries⟩
termination_by structural x => x

def Node.mapParameters : Node → Node
  | ⟨n, ls, m⟩ => ⟨n, ls, mapParametersOfProperties m⟩
termination_by structural x => x

def mapParametersOfAll : List Expression → List Expression
  | [] => []
  | e :: rest => e.mapParameters :: mapParametersOfAll rest
termination_by structural x => x

def mapParametersOfMembers : List Condition → List Condition
  | [] => []
  | c :: rest => c.mapParameters :: mapParametersOfMembers rest
termination_by structural x => x

def mapParametersOfEntries : List MapEntry → List MapEntry
  | [] => []
  | e :: rest => e.mapParameters :: mapParametersOfEntries rest
termination_by structural x => x

def mapParametersOfProperties : Option MapExpression → Option MapExpression
  | none => none
  | some m => some m.mapParameters
termination_by structural x => x

end

@[simp] theorem mapParametersOfAll_eq_map (es : List Expression) :
    mapParametersOfAll f es = es.map (Expression.mapParameters f) := by
  induction es with
  | nil => rfl
  | cons e es ih => simp [mapParametersOfAll, ih]

namespace Relationship

def mapParameters (r : Relationship) : Relationship :=
  ⟨r.left.mapParameters f, { r.detail with properties := mapParametersOfProperties f r.detail.properties },
    r.right.mapParameters f⟩

variable {f}

/-- Relationships that follow each other do so with other parameters. -/
theorem Linked.mapParameters {rs : List Relationship} (h : Linked rs) :
    Linked (rs.map (Relationship.mapParameters f)) := by
  induction rs with
  | nil => trivial
  | cons r rs ih =>
    refine ⟨fun s hs => ?_, ih h.2⟩
    rw [List.head?_map] at hs
    obtain ⟨t, ht, rfl⟩ := Option.map_eq_some_iff.mp hs
    exact congrArg (Node.mapParameters f) (h.1 t ht)

end Relationship

def Chain.mapParameters (c : Chain) : Chain where
  earlier := c.earlier.map (Relationship.mapParameters f)
  last := c.last.mapParameters f
  linked := by
    have h := c.linked.mapParameters (f := f)
    rwa [List.map_append, List.map_singleton] at h

def PatternElement.mapParameters : PatternElement → PatternElement
  | .node n => .node (n.mapParameters f)
  | .relationship r => .relationship (r.mapParameters f)
  | .chain c => .chain (c.mapParameters f)

def Pattern.mapParameters (p : Pattern) : Pattern := ⟨p.elements.map (PatternElement.mapParameters f)⟩

def SortItem.mapParameters (i : SortItem) : SortItem := { i with expression := i.expression.mapParameters f }

def Projection.mapParameters (b : Projection) : Projection :=
  { b with
    items := b.items.map (Expression.mapParameters f)
    order := b.order.map (List.map (SortItem.mapParameters f)) }

def Clause.mapParameters : Clause → Clause
  | .matching m =>
    .matching ⟨m.optional, m.pattern.mapParameters f, m.filter.map (Condition.mapParameters f)⟩
  | .creating p => .creating (p.mapParameters f)
  | .merging p => .merging (p.mapParameters f)
  | .deleting detach items => .deleting detach (items.map (Expression.mapParameters f))
  | .setting items => .setting (items.map (Expression.mapParameters f))
  | .removing items => .removing (items.map (Expression.mapParameters f))
  | .unwinding e name => .unwinding (e.mapParameters f) name
  | .passing w => .passing ⟨w.body.mapParameters f, w.filter.map (Condition.mapParameters f)⟩
  | .returning b => .returning (b.mapParameters f)

def Query.mapParameters (q : Query) : Query := ⟨q.clauses.map (Clause.mapParameters f)⟩

/-- The statement with other parameters in the places of its own. -/
def Statement.mapParameters : Statement → Statement
  | .single q => .single (q.mapParameters f)
  | .union all parts => .union all (parts.map (Query.mapParameters f))

namespace Construct

/-- The parameters that a construct keeps itself. An aliased expression is kept as a whole. -/
def parameters : Construct → List Parameter
  | .parameter p => [p]
  | .aliased e _ => e.parameters
  | _ => []

def mapParameters : Construct → Construct
  | .parameter p => .parameter (f p)
  | .aliased e name => .aliased (e.mapParameters f) name
  | c => c

end Construct

section Trees

open SyntaxTree

@[simp] theorem map_leaf (m : Construct → Construct) (c : Construct) : (leaf c).map m = leaf (m c) := by
  simp [leaf]

@[simp] theorem map_ofName (n : Identifier) : (ofName n).map (Construct.mapParameters f) = ofName n := by
  simp [ofName, Construct.mapParameters]

@[simp] theorem map_ofOperator (op : Operator) : (ofOperator op).map (Construct.mapParameters f) = ofOperator op := by
  simp [ofOperator, Construct.mapParameters]

/-- Leaves without parameters. -/
theorem map_leaves {α : Type} {c : α → Construct} (hc : ∀ a, (c a).mapParameters f = c a) (as : List α) :
    (as.map fun a => leaf (c a)).map (SyntaxTree.map (Construct.mapParameters f)) = as.map fun a => leaf (c a) := by
  rw [List.map_map]
  refine List.map_congr_left fun a _ => ?_
  rw [Function.comp_apply, map_leaf, hc a]

@[simp] theorem map_ofLabels (ls : List Label) :
    (ofLabels ls).map (SyntaxTree.map (Construct.mapParameters f)) = ofLabels ls :=
  map_leaves f (fun _ => rfl) ls

theorem map_joined (op : Operator) (ts : List SyntaxTree) :
    (joined op ts).map (SyntaxTree.map (Construct.mapParameters f)) =
      joined op (ts.map (SyntaxTree.map (Construct.mapParameters f))) := by
  fun_induction joined op ts with
  | case1 => rfl
  | case2 t => rfl
  | case3 t rest hrest ih =>
    obtain ⟨u, us, rfl⟩ := List.exists_cons_of_ne_nil hrest
    simp only [List.map_cons, joined, map_ofOperator] at ih ⊢
    rw [ih]

mutual

theorem Expression.tree_mapParameters (e : Expression) :
    (e.mapParameters f).tree = e.tree.map (Construct.mapParameters f) := by
  match e with
  | .literal l => simp [Expression.mapParameters, Expression.tree, Construct.mapParameters]
  | .variable n => simp [Expression.mapParameters, Expression.tree]
  | .parameter p => simp [Expression.mapParameters, Expression.tree, Construct.mapParameters]
  | .property e key =>
    simp [Expression.mapParameters, Expression.tree, Construct.mapParameters, e.tree_mapParameters]
  | .function g es =>
    simp only [Expression.mapParameters, Expression.tree, map_branch, trees_mapParametersOfAll es]
    rfl
  | .operation o => exact o.tree_mapParameters
  | .condition c => exact c.tree_mapParameters
  | .aliased e name =>
    simp [Expression.mapParameters, Expression.tree, Construct.mapParameters, e.tree_mapParameters]
  | .map m => exact m.tree_mapParameters
  | .list es =>
    simp only [Expression.mapParameters, Expression.tree, map_branch, trees_mapParametersOfAll es]
    rfl
  | .node n => exact n.tree_mapParameters
  | .asterisk => simp [Expression.mapParameters, Expression.tree, Construct.mapParameters]
termination_by structural e

theorem Operation.tree_mapParameters (o : Operation) :
    (o.mapParameters f).tree = o.tree.map (Construct.mapParameters f) := by
  match o with
  | .binary a op b =>
    simp [Operation.mapParameters, Operation.tree, Construct.mapParameters, a.tree_mapParameters,
      b.tree_mapParameters]
  | .labels n change ls => simp [Operation.mapParameters, Operation.tree, Construct.mapParameters]
termination_by structural o

theorem Condition.tree_mapParameters (c : Condition) :
    (c.mapParameters f).tree = c.tree.map (Construct.mapParameters f) := by
  match c with
  | .comparison a op b =>
    simp [Condition.mapParameters, Condition.tree, Construct.mapParameters, a.tree_mapParameters,
      b.tree_mapParameters]
  | .test a op after =>
    simp [Condition.mapParameters, Condition.tree, Construct.mapParameters, a.tree_mapParameters]
  | .compound op cs =>
    simp only [Condition.mapParameters, Condition.tree, map_branch, map_joined, trees_mapParametersOfMembers cs]
    rfl
  | .not c => simp [Condition.mapParameters, Condition.tree, Construct.mapParameters, c.tree_mapParameters]
  | .hasLabels n ls => simp [Condition.mapParameters, Condition.tree, Construct.mapParameters]
termination_by structural c

theorem MapEntry.tree_mapParameters (e : MapEntry) :
    (e.mapParameters f).tree = e.tree.map (Construct.mapParameters f) := by
  match e with
  | ⟨key, e⟩ => simp [MapEntry.mapParameters, MapEntry.tree, Construct.mapParameters, e.tree_mapParameters]
termination_by structural e

theorem MapExpression.tree_mapParameters (m : MapExpression) :
    (m.mapParameters f).tree = m.tree.map (Construct.mapParameters f) := by
  match m with
  | ⟨entries⟩ =>
    simp only [MapExpression.mapParameters, MapExpression.tree, map_branch, trees_mapParametersOfEntries entries]
    rfl
termination_by structural m

theorem Node.tree_mapParameters (n : Node) :
    (n.mapParameters f).tree = n.tree.map (Construct.mapParameters f) := by
  match n with
  | ⟨name, ls, m⟩ =>
    have hname : (name.toList.map ofName).map (SyntaxTree.map (Construct.mapParameters f)) =
        name.toList.map ofName := map_leaves f (fun _ => rfl) _
    simp only [Node.mapParameters, Node.tree, map_branch, List.map_append, map_ofLabels,
      trees_mapParametersOfProperties m, hname]
    rfl
termination_by structural n

theorem trees_mapParametersOfAll (es : List Expression) : expressionTrees (mapParametersOfAll f es) =
    (expressionTrees es).map (SyntaxTree.map (Construct.mapParameters f)) := by
  match es with
  | [] => rfl
  | e :: rest =>
    rw [mapParametersOfAll, expressionTrees, expressionTrees, List.map_cons, e.tree_mapParameters,
      trees_mapParametersOfAll rest]
termination_by structural es

theorem trees_mapParametersOfMembers (cs : List Condition) : conditionTrees (mapParametersOfMembers f cs) =
    (conditionTrees cs).map (SyntaxTree.map (Construct.mapParameters f)) := by
  match cs with
  | [] => rfl
  | c :: rest =>
    rw [mapParametersOfMembers, conditionTrees, conditionTrees, List.map_cons, c.tree_mapParameters,
      trees_mapParametersOfMembers rest]
termination_by structural cs

theorem trees_mapParametersOfEntries (es : List MapEntry) : entryTrees (mapParametersOfEntries f es) =
    (entryTrees es).map (SyntaxTree.map (Construct.mapParameters f)) := by
  match es with
  | [] => rfl
  | e :: rest =>
    rw [mapParametersOfEntries, entryTrees, entryTrees, List.map_cons, e.tree_mapParameters,
      trees_mapParametersOfEntries rest]
termination_by structural es

theorem trees_mapParametersOfProperties (m : Option MapExpression) :
    propertyTrees (mapParametersOfProperties f m) =
      (propertyTrees m).map (SyntaxTree.map (Construct.mapParameters f)) := by
  match m with
  | none => rfl
  | some m => simp [mapParametersOfProperties, propertyTrees, Construct.mapParameters, m.tree_mapParameters]
termination_by structural m

end

theorem Relationship.map_hop (r : Relationship) :
    r.hop.map (SyntaxTree.map (Construct.mapParameters f)) = (r.mapParameters f).hop := by
  have hdetail : r.detail.tree.map (Construct.mapParameters f) = (r.mapParameters f).detail.tree := by
    have hname : (r.detail.name.toList.map ofName).map (SyntaxTree.map (Construct.mapParameters f)) =
        r.detail.name.toList.map ofName := map_leaves f (fun _ => rfl) _
    have htypes : (if r.detail.types.isEmpty then [] else [leaf (.relationshipTypes r.detail.types)]).map
        (SyntaxTree.map (Construct.mapParameters f)) =
          if r.detail.types.isEmpty then [] else [leaf (.relationshipTypes r.detail.types)] := by
      split <;> simp [Construct.mapParameters]
    have hlength : (r.detail.length.toList.map fun l => leaf (.relationshipLength l)).map
        (SyntaxTree.map (Construct.mapParameters f)) =
          r.detail.length.toList.map fun l => leaf (.relationshipLength l) := map_leaves f (fun _ => rfl) _
    simp only [RelationshipDetail.tree, map_branch, List.map_append, hname, htypes, hlength,
      ← trees_mapParametersOfProperties]
    rfl
  simp only [Relationship.hop, List.map_cons, List.map_nil, hdetail, ← r.right.tree_mapParameters]
  rfl

theorem PatternElement.tree_mapParameters (e : PatternElement) :
    (e.mapParameters f).tree = e.tree.map (Construct.mapParameters f) := by
  cases e with
  | node n => exact n.tree_mapParameters f
  | relationship r =>
    simp only [PatternElement.mapParameters, PatternElement.tree, Relationship.tree, map_branch, List.map_cons,
      r.map_hop f, ← r.left.tree_mapParameters]
    rfl
  | chain c =>
    have hrelationships : (c.mapParameters f).relationships = c.relationships.map (Relationship.mapParameters f) := by
      simp [Chain.relationships, Chain.mapParameters]
    have hhead : ((c.relationships.head?.map fun r => r.left.tree).toList).map
        (SyntaxTree.map (Construct.mapParameters f)) =
          ((c.relationships.map (Relationship.mapParameters f)).head?.map fun r => r.left.tree).toList := by
      cases c.relationships with
      | nil => rfl
      | cons r rs => simp [Relationship.mapParameters, Node.tree_mapParameters]
    simp only [PatternElement.mapParameters, PatternElement.tree, Chain.tree, map_branch, List.map_append, hhead,
      hrelationships, List.map_flatMap, List.flatMap_map, Relationship.map_hop]
    rfl

theorem Pattern.tree_mapParameters (p : Pattern) :
    (p.mapParameters f).tree = p.tree.map (Construct.mapParameters f) := by
  simp [Pattern.tree, Pattern.mapParameters, Construct.mapParameters, PatternElement.tree_mapParameters,
    Function.comp_def]

namespace Clause

theorem itemsTree_mapParameters (items : List Expression) :
    itemsTree (items.map (Expression.mapParameters f)) = (itemsTree items).map (Construct.mapParameters f) := by
  rw [itemsTree, ← mapParametersOfAll_eq_map, trees_mapParametersOfAll, itemsTree, map_branch]
  rfl

theorem filterTrees_mapParameters (filter : Option Condition) :
    filterTrees (filter.map (Condition.mapParameters f)) =
      (filterTrees filter).map (SyntaxTree.map (Construct.mapParameters f)) := by
  cases filter with
  | none => rfl
  | some c => simp [filterTrees, Construct.mapParameters, c.tree_mapParameters]

theorem tree_sortItem (i : SortItem) : (i.mapParameters f).tree = i.tree.map (Construct.mapParameters f) := by
  cases h : i.direction <;>
    simp [SortItem.tree, SortItem.mapParameters, Construct.mapParameters, h, i.expression.tree_mapParameters]

theorem bodyTrees_mapParameters (b : Projection) :
    bodyTrees (b.mapParameters f) = (bodyTrees b).map (SyntaxTree.map (Construct.mapParameters f)) := by
  have horder : ((b.order.map (List.map (SortItem.mapParameters f))).toList.map fun items =>
      branch .order (items.map SortItem.tree)) =
        (b.order.toList.map fun items => branch .order (items.map SortItem.tree)).map
          (SyntaxTree.map (Construct.mapParameters f)) := by
    cases b.order with
    | none => rfl
    | some items => simp [Construct.mapParameters, tree_sortItem, Function.comp_def]
  have hskip : (b.skip.toList.map fun n => leaf (.skip n)).map (SyntaxTree.map (Construct.mapParameters f)) =
      b.skip.toList.map fun n => leaf (.skip n) := map_leaves f (fun _ => rfl) _
  have hlimit : (b.limit.toList.map fun n => leaf (.limit n)).map (SyntaxTree.map (Construct.mapParameters f)) =
      b.limit.toList.map fun n => leaf (.limit n) := map_leaves f (fun _ => rfl) _
  simp only [bodyTrees, Projection.mapParameters, List.map_cons, List.map_append, itemsTree_mapParameters, horder,
    hskip, hlimit]

theorem tree_mapParameters (c : Clause) : (c.mapParameters f).tree = c.tree.map (Construct.mapParameters f) := by
  cases c with
  | matching m =>
    simp [Clause.mapParameters, tree, Construct.mapParameters, m.pattern.tree_mapParameters,
      filterTrees_mapParameters]
  | creating p | merging p =>
    simp [Clause.mapParameters, tree, Construct.mapParameters, p.tree_mapParameters]
  | deleting _ items | setting items | removing items =>
    simp [Clause.mapParameters, tree, Construct.mapParameters, itemsTree_mapParameters]
  | unwinding e name =>
    simp [Clause.mapParameters, tree, Construct.mapParameters, e.tree_mapParameters]
  | passing w =>
    simp only [Clause.mapParameters, tree, map_branch, List.map_append, bodyTrees_mapParameters,
      filterTrees_mapParameters]
    rfl
  | returning b =>
    simp only [Clause.mapParameters, tree, map_branch, bodyTrees_mapParameters]
    rfl

end Clause

theorem Query.tree_mapParameters (q : Query) : (q.mapParameters f).tree = q.tree.map (Construct.mapParameters f) := by
  simp [Query.tree, Query.mapParameters, Construct.mapParameters, Clause.tree_mapParameters, Function.comp_def]

/-- The tree of a statement with other parameters is its tree with these parameters. -/
theorem Statement.tree_mapParameters (s : Statement) :
    (s.mapParameters f).tree = s.tree.map (Construct.mapParameters f) := by
  match s with
  | .single q => simp [Statement.mapParameters, Statement.tree, Construct.mapParameters, q.tree_mapParameters]
  | .union all [] => simp [Statement.mapParameters, Statement.tree, Construct.mapParameters]
  | .union all (q :: rest) =>
    simp [Statement.mapParameters, Statement.tree, Construct.mapParameters, Query.tree_mapParameters,
      Function.comp_def]

end Trees

section Equality

/-- Replacing keeps equal and different the parameters of one list and those of another. -/
def KeepsSame (ps qs : List Parameter) : Prop := ∀ p ∈ ps, ∀ q ∈ qs, (f p).same (f q) = p.same q

variable {f} {ps ps' qs qs' : List Parameter}

theorem KeepsSame.left (h : KeepsSame f (ps ++ ps') (qs ++ qs')) : KeepsSame f ps qs := fun p hp q hq =>
  h p (List.mem_append_left _ hp) q (List.mem_append_left _ hq)

theorem KeepsSame.right (h : KeepsSame f (ps ++ ps') (qs ++ qs')) : KeepsSame f ps' qs' := fun p hp q hq =>
  h p (List.mem_append_right _ hp) q (List.mem_append_right _ hq)

mutual

/-- Two expressions are equal with other parameters when they are with their own. -/
theorem Expression.same_mapParameters (a b : Expression) (h : KeepsSame f a.parameters b.parameters) :
    (a.mapParameters f).same (b.mapParameters f) = a.same b := by
  match a with
  | .literal _ | .variable _ | .asterisk => cases b <;> rfl
  | .parameter p =>
    cases b with
    | parameter q => exact h p List.mem_cons_self q List.mem_cons_self
    | _ => rfl
  | .property a k =>
    cases b with
    | property b l => simp only [Expression.mapParameters, Expression.same, a.same_mapParameters b h]
    | _ => rfl
  | .function g as =>
    cases b with
    | function g' bs =>
      simp only [Expression.mapParameters, Expression.same, sameExpressions_mapParameters as bs h]
    | _ => rfl
  | .operation a =>
    cases b with
    | operation b => exact a.same_mapParameters b h
    | _ => rfl
  | .condition a =>
    cases b with
    | condition b => exact a.same_mapParameters b h
    | _ => rfl
  | .aliased a n =>
    cases b with
    | aliased b m => simp only [Expression.mapParameters, Expression.same, a.same_mapParameters b h]
    | _ => rfl
  | .map a =>
    cases b with
    | map b => exact a.same_mapParameters b h
    | _ => rfl
  | .list as =>
    cases b with
    | list bs => exact sameExpressions_mapParameters as bs h
    | _ => rfl
  | .node a =>
    cases b with
    | node b => exact a.same_mapParameters b h
    | _ => rfl
termination_by structural a

theorem Operation.same_mapParameters (a b : Operation) (h : KeepsSame f a.parameters b.parameters) :
    (a.mapParameters f).same (b.mapParameters f) = a.same b := by
  match a with
  | .binary a o b' =>
    cases b with
    | binary c p d =>
      simp only [Operation.mapParameters, Operation.same, a.same_mapParameters c h.left,
        b'.same_mapParameters d h.right]
    | _ => rfl
  | .labels .. => cases b <;> rfl
termination_by structural a

theorem Condition.same_mapParameters (a b : Condition) (h : KeepsSame f a.parameters b.parameters) :
    (a.mapParameters f).same (b.mapParameters f) = a.same b := by
  match a with
  | .comparison a o b' =>
    cases b with
    | comparison c p d =>
      simp only [Condition.mapParameters, Condition.same, a.same_mapParameters c h.left,
        b'.same_mapParameters d h.right]
    | _ => rfl
  | .test a o after =>
    cases b with
    | test c p after' => simp only [Condition.mapParameters, Condition.same, a.same_mapParameters c h]
    | _ => rfl
  | .compound o as =>
    cases b with
    | compound p bs => simp only [Condition.mapParameters, Condition.same, sameConditions_mapParameters as bs h]
    | _ => rfl
  | .not a =>
    cases b with
    | not c => exact a.same_mapParameters c h
    | _ => rfl
  | .hasLabels .. => cases b <;> rfl
termination_by structural a

theorem MapEntry.same_mapParameters (a b : MapEntry) (h : KeepsSame f a.parameters b.parameters) :
    (a.mapParameters f).same (b.mapParameters f) = a.same b := by
  match a, b with
  | ⟨k, a⟩, ⟨l, b⟩ => simp only [MapEntry.mapParameters, MapEntry.same, a.same_mapParameters b h]
termination_by structural a

theorem MapExpression.same_mapParameters (a b : MapExpression) (h : KeepsSame f a.parameters b.parameters) :
    (a.mapParameters f).same (b.mapParameters f) = a.same b := by
  match a, b with
  | ⟨as⟩, ⟨bs⟩ => exact sameEntries_mapParameters as bs h
termination_by structural a

theorem Node.same_mapParameters (a b : Node) (h : KeepsSame f a.parameters b.parameters) :
    (a.mapParameters f).same (b.mapParameters f) = a.same b := by
  match a, b with
  | ⟨n, ls, as⟩, ⟨m, ms, bs⟩ =>
    simp only [Node.mapParameters, Node.same, sameProperties_mapParameters as bs h]
termination_by structural a

theorem sameExpressions_mapParameters (as bs : List Expression)
    (h : KeepsSame f (parametersOfAll as) (parametersOfAll bs)) :
    sameExpressions (mapParametersOfAll f as) (mapParametersOfAll f bs) = sameExpressions as bs := by
  match as, bs with
  | a :: as, b :: bs =>
    simp only [mapParametersOfAll, sameExpressions, a.same_mapParameters b h.left,
      sameExpressions_mapParameters as bs h.right]
  | [], [] | [], _ :: _ | _ :: _, [] => rfl
termination_by structural as

theorem sameConditions_mapParameters (as bs : List Condition)
    (h : KeepsSame f (parametersOfMembers as) (parametersOfMembers bs)) :
    sameConditions (mapParametersOfMembers f as) (mapParametersOfMembers f bs) = sameConditions as bs := by
  match as, bs with
  | a :: as, b :: bs =>
    simp only [mapParametersOfMembers, sameConditions, a.same_mapParameters b h.left,
      sameConditions_mapParameters as bs h.right]
  | [], [] | [], _ :: _ | _ :: _, [] => rfl
termination_by structural as

theorem sameEntries_mapParameters (as bs : List MapEntry)
    (h : KeepsSame f (parametersOfEntries as) (parametersOfEntries bs)) :
    sameEntries (mapParametersOfEntries f as) (mapParametersOfEntries f bs) = sameEntries as bs := by
  match as, bs with
  | a :: as, b :: bs =>
    simp only [mapParametersOfEntries, sameEntries, a.same_mapParameters b h.left,
      sameEntries_mapParameters as bs h.right]
  | [], [] | [], _ :: _ | _ :: _, [] => rfl
termination_by structural as

theorem sameProperties_mapParameters (as bs : Option MapExpression)
    (h : KeepsSame f (parametersOfProperties as) (parametersOfProperties bs)) :
    sameProperties (mapParametersOfProperties f as) (mapParametersOfProperties f bs) = sameProperties as bs := by
  match as, bs with
  | some a, some b => exact a.same_mapParameters b h
  | none, none | none, some _ | some _, none => rfl
termination_by structural as

end

end Equality

section Occurrences

/-- What one member brings into a list. -/
theorem subset_of_flatMap {α β : Type} {f : α → List β} {as : List α} {bs : List β} (h : as.flatMap f ⊆ bs) {a : α}
    (ha : a ∈ as) : f a ⊆ bs := fun _ hb => h (List.mem_flatMap.mpr ⟨a, ha, hb⟩)

/-- No construct of the tree keeps a parameter that is not in the list. -/
def SyntaxTree.Within (t : SyntaxTree) (ps : List Parameter) : Prop := ∀ c ∈ t.constructs, c.parameters ⊆ ps

open SyntaxTree

variable {ps : List Parameter}

theorem SyntaxTree.Within.branch {c : Construct} {ts : List SyntaxTree} (hc : c.parameters ⊆ ps)
    (hts : ∀ t ∈ ts, t.Within ps) : (branch c ts).Within ps := by
  rw [SyntaxTree.Within, constructs_branch, List.forall_mem_cons]
  refine ⟨hc, fun d hd => ?_⟩
  obtain ⟨t, ht, hdt⟩ := List.mem_flatMap.mp hd
  exact hts t ht d hdt

theorem SyntaxTree.Within.leaf {c : Construct} (hc : c.parameters ⊆ ps) : (leaf c).Within ps := .branch hc (by simp)

theorem SyntaxTree.Within.ofName (n : Identifier) : (ofName n).Within ps := .leaf (List.nil_subset ps)

theorem SyntaxTree.Within.ofOperator (op : Operator) : (ofOperator op).Within ps := .leaf (List.nil_subset ps)

theorem SyntaxTree.Within.leaves {α : Type} {c : α → Construct} (hc : ∀ a, (c a).parameters = []) (as : List α) :
    ∀ t ∈ as.map fun a => SyntaxTree.leaf (c a), t.Within ps := by
  intro t ht
  obtain ⟨a, -, rfl⟩ := List.mem_map.mp ht
  exact .leaf (hc a ▸ List.nil_subset ps)

theorem SyntaxTree.Within.ofLabels (ls : List Label) : ∀ t ∈ ofLabels ls, t.Within ps := .leaves (fun _ => rfl) ls

theorem SyntaxTree.Within.joined (op : Operator) {ts : List SyntaxTree} (hts : ∀ t ∈ ts, t.Within ps) :
    ∀ t ∈ joined op ts, t.Within ps := by
  fun_induction SyntaxTree.joined op ts with
  | case1 => exact hts
  | case2 t => exact hts
  | case3 t rest hrest ih =>
    rw [List.forall_mem_cons] at hts
    simp only [List.forall_mem_cons]
    exact ⟨hts.1, .ofOperator op, ih hts.2⟩

theorem SyntaxTree.Within.parameters {t : SyntaxTree} (h : t.Within ps) : t.parameters ⊆ ps := by
  intro p hp
  obtain ⟨c, hc, hp⟩ := List.mem_filterMap.mp hp
  have hsubset := h c hc
  cases c with
  | parameter q =>
    rw [← Option.some.inj hp]
    exact hsubset List.mem_cons_self
  | _ => exact nomatch hp

mutual

/-- The tree of an expression keeps the parameters of the expression and no others. -/
theorem Expression.within_tree (e : Expression) (h : e.parameters ⊆ ps) : e.tree.Within ps := by
  match e with
  | .literal _ | .variable _ | .asterisk => exact .leaf (List.nil_subset ps)
  | .parameter p => exact .leaf h
  | .property e key => exact .branch (List.nil_subset ps) (List.forall_mem_singleton.mpr (e.within_tree h))
  | .function _ es => exact .branch (List.nil_subset ps) (within_expressionTrees es h)
  | .operation o => exact o.within_tree h
  | .condition c => exact c.within_tree h
  | .aliased e name => exact .branch h (List.forall_mem_singleton.mpr (e.within_tree h))
  | .map m => exact m.within_tree h
  | .list es => exact .branch (List.nil_subset ps) (within_expressionTrees es h)
  | .node n => exact n.within_tree h
termination_by structural e

theorem Operation.within_tree (o : Operation) (h : o.parameters ⊆ ps) : o.tree.Within ps := by
  match o with
  | .binary a op b =>
    obtain ⟨ha, hb⟩ := List.append_subset.mp h
    refine .branch (List.nil_subset ps) ?_
    simp only [List.forall_mem_cons]
    exact ⟨a.within_tree ha, .ofOperator _, b.within_tree hb, by simp⟩
  | .labels n change ls =>
    refine .branch (List.nil_subset ps) ?_
    simp only [List.forall_mem_cons]
    exact ⟨.ofName n, .ofOperator _, .ofLabels ls⟩
termination_by structural o

theorem Condition.within_tree (c : Condition) (h : c.parameters ⊆ ps) : c.tree.Within ps := by
  match c with
  | .comparison a op b =>
    obtain ⟨ha, hb⟩ := List.append_subset.mp h
    refine .branch (List.nil_subset ps) ?_
    simp only [List.forall_mem_cons]
    exact ⟨a.within_tree ha, .ofOperator _, b.within_tree hb, by simp⟩
  | .test a op _ =>
    refine .branch (List.nil_subset ps) ?_
    simp only [List.forall_mem_cons]
    exact ⟨a.within_tree h, .ofOperator _, by simp⟩
  | .compound op cs => exact .branch (List.nil_subset ps) (.joined _ (within_conditionTrees cs h))
  | .not c => exact .branch (List.nil_subset ps) (List.forall_mem_singleton.mpr (c.within_tree h))
  | .hasLabels n ls => exact .branch (List.nil_subset ps) (List.forall_mem_cons.mpr ⟨.ofName n, .ofLabels ls⟩)
termination_by structural c

theorem MapEntry.within_tree (e : MapEntry) (h : e.parameters ⊆ ps) : e.tree.Within ps := by
  match e with
  | ⟨key, e⟩ => exact .branch (List.nil_subset ps) (List.forall_mem_singleton.mpr (e.within_tree h))
termination_by structural e

theorem MapExpression.within_tree (m : MapExpression) (h : m.parameters ⊆ ps) : m.tree.Within ps := by
  match m with
  | ⟨entries⟩ => exact .branch (List.nil_subset ps) (within_entryTrees entries h)
termination_by structural m

theorem Node.within_tree (n : Node) (h : n.parameters ⊆ ps) : n.tree.Within ps := by
  match n with
  | ⟨name, ls, m⟩ =>
    refine .branch (List.nil_subset ps) ?_
    simp only [List.forall_mem_append]
    exact ⟨⟨.leaves (fun _ => rfl) _, .ofLabels ls⟩, within_propertyTrees m h⟩
termination_by structural n

theorem within_expressionTrees (es : List Expression) (h : parametersOfAll es ⊆ ps) :
    ∀ t ∈ expressionTrees es, t.Within ps := by
  match es with
  | [] => simp [expressionTrees]
  | e :: rest =>
    obtain ⟨he, hrest⟩ := List.append_subset.mp h
    exact List.forall_mem_cons.mpr ⟨e.within_tree he, within_expressionTrees rest hrest⟩
termination_by structural es

theorem within_conditionTrees (cs : List Condition) (h : parametersOfMembers cs ⊆ ps) :
    ∀ t ∈ conditionTrees cs, t.Within ps := by
  match cs with
  | [] => simp [conditionTrees]
  | c :: rest =>
    obtain ⟨hc, hrest⟩ := List.append_subset.mp h
    exact List.forall_mem_cons.mpr ⟨c.within_tree hc, within_conditionTrees rest hrest⟩
termination_by structural cs

theorem within_entryTrees (es : List MapEntry) (h : parametersOfEntries es ⊆ ps) :
    ∀ t ∈ entryTrees es, t.Within ps := by
  match es with
  | [] => simp [entryTrees]
  | e :: rest =>
    obtain ⟨he, hrest⟩ := List.append_subset.mp h
    exact List.forall_mem_cons.mpr ⟨e.within_tree he, within_entryTrees rest hrest⟩
termination_by structural es

theorem within_propertyTrees (m : Option MapExpression) (h : parametersOfProperties m ⊆ ps) :
    ∀ t ∈ propertyTrees m, t.Within ps := by
  match m with
  | none => simp [propertyTrees]
  | some m =>
    exact List.forall_mem_singleton.mpr
      (.branch (List.nil_subset ps) (List.forall_mem_singleton.mpr (m.within_tree h)))
termination_by structural m

end

theorem RelationshipDetail.within_tree (d : RelationshipDetail) (h : parametersOfProperties d.properties ⊆ ps) :
    d.tree.Within ps := by
  refine .branch (List.nil_subset ps) ?_
  simp only [List.forall_mem_append]
  refine ⟨⟨⟨.leaves (fun _ => rfl) _, fun t ht => ?_⟩, .leaves (fun _ => rfl) _⟩, within_propertyTrees _ h⟩
  split at ht
  · exact absurd ht List.not_mem_nil
  · rw [List.mem_singleton.mp ht]
    exact .leaf (List.nil_subset ps)

theorem Relationship.within_hop (r : Relationship) (h : r.parameters ⊆ ps) : ∀ t ∈ r.hop, t.Within ps := by
  obtain ⟨hdetail, hright⟩ := List.append_subset.mp h
  obtain ⟨-, hdetail⟩ := List.append_subset.mp hdetail
  simp only [Relationship.hop, List.forall_mem_cons]
  exact ⟨r.detail.within_tree hdetail, r.right.within_tree hright, by simp⟩

theorem PatternElement.within_tree (e : PatternElement) (h : e.parameters ⊆ ps) : e.tree.Within ps := by
  have hleft : ∀ r : Relationship, r.parameters ⊆ ps → r.left.tree.Within ps := fun r hr =>
    r.left.within_tree (List.append_subset.mp (List.append_subset.mp hr).1).1
  cases e with
  | node n => exact n.within_tree h
  | relationship r => exact .branch (List.nil_subset ps) (List.forall_mem_cons.mpr ⟨hleft r h, r.within_hop h⟩)
  | chain c =>
    have hr : ∀ r ∈ c.relationships, r.parameters ⊆ ps := fun r hr =>
      subset_of_flatMap h hr
    refine .branch (List.nil_subset ps) (List.forall_mem_append.mpr ⟨fun t ht => ?_, fun t ht => ?_⟩)
    · obtain ⟨r, hhead, rfl⟩ := Option.map_eq_some_iff.mp (Option.mem_toList.mp ht)
      exact hleft r (hr r (List.mem_of_mem_head? hhead))
    · obtain ⟨r, hmem, ht⟩ := List.mem_flatMap.mp ht
      exact r.within_hop (hr r hmem) t ht

theorem Pattern.within_tree (p : Pattern) (h : p.parameters ⊆ ps) : p.tree.Within ps := by
  refine .branch (List.nil_subset ps) fun t ht => ?_
  obtain ⟨e, he, rfl⟩ := List.mem_map.mp ht
  exact e.within_tree (subset_of_flatMap h he)

namespace Clause

theorem within_itemsTree (items : List Expression) (h : items.flatMap Expression.parameters ⊆ ps) :
    (itemsTree items).Within ps :=
  .branch (List.nil_subset ps) (within_expressionTrees items (parametersOfAll_eq_flatMap items ▸ h))

theorem within_filterTrees (filter : Option Condition) (h : parametersOfFilter filter ⊆ ps) :
    ∀ t ∈ filterTrees filter, t.Within ps := by
  intro t ht
  obtain ⟨c, hc, rfl⟩ := List.mem_map.mp ht
  exact .branch (List.nil_subset ps)
    (List.forall_mem_singleton.mpr (c.within_tree (subset_of_flatMap h hc)))

theorem within_sortItem (i : SortItem) (h : i.expression.parameters ⊆ ps) : i.tree.Within ps := by
  exact .branch (List.nil_subset ps)
    (List.forall_mem_cons.mpr ⟨i.expression.within_tree h, .leaves (fun _ => rfl) _⟩)

theorem within_bodyTrees (b : Projection) (h : parametersOfBody b ⊆ ps) : ∀ t ∈ bodyTrees b, t.Within ps := by
  obtain ⟨hitems, horder⟩ := List.append_subset.mp h
  simp only [bodyTrees, List.forall_mem_cons, List.forall_mem_append]
  refine ⟨within_itemsTree b.items hitems, ⟨fun t ht => ?_, .leaves (fun _ => rfl) _⟩, .leaves (fun _ => rfl) _⟩
  obtain ⟨items, hb, rfl⟩ := List.mem_map.mp ht
  refine .branch (List.nil_subset ps) fun t ht => ?_
  obtain ⟨i, hi, rfl⟩ := List.mem_map.mp ht
  rw [Option.mem_toList.mp hb] at horder
  exact within_sortItem i (subset_of_flatMap (f := fun i => i.expression.parameters) horder hi)

theorem within_tree (c : Clause) (h : c.parameters ⊆ ps) : c.tree.Within ps := by
  cases c with
  | matching m =>
    obtain ⟨hpattern, hfilter⟩ := List.append_subset.mp h
    exact .branch (List.nil_subset ps)
      (List.forall_mem_cons.mpr ⟨m.pattern.within_tree hpattern, within_filterTrees _ hfilter⟩)
  | creating p | merging p =>
    exact .branch (List.nil_subset ps) (List.forall_mem_singleton.mpr (p.within_tree h))
  | deleting _ items | setting items | removing items =>
    exact .branch (List.nil_subset ps) (List.forall_mem_singleton.mpr (within_itemsTree items h))
  | unwinding e name =>
    exact .branch (List.nil_subset ps) (List.forall_mem_singleton.mpr (e.within_tree h))
  | passing w =>
    obtain ⟨hbody, hfilter⟩ := List.append_subset.mp h
    exact .branch (List.nil_subset ps)
      (List.forall_mem_append.mpr ⟨within_bodyTrees _ hbody, within_filterTrees _ hfilter⟩)
  | returning b => exact .branch (List.nil_subset ps) (within_bodyTrees b h)

end Clause

theorem Query.within_tree (q : Query) (h : q.parameters ⊆ ps) : q.tree.Within ps := by
  refine .branch (List.nil_subset ps) fun t ht => ?_
  obtain ⟨c, hc, rfl⟩ := List.mem_map.mp ht
  exact c.within_tree (subset_of_flatMap h hc)

/-- The tree of a statement keeps no parameters but those of the statement. -/
theorem Statement.within_tree (s : Statement) : s.tree.Within s.parameters := by
  match s with
  | .single q => exact .branch (List.nil_subset _) (List.forall_mem_singleton.mpr (q.within_tree (List.Subset.refl _)))
  | .union all [] => exact .branch (List.nil_subset _) (by simp)
  | .union all (q :: rest) =>
    have hparts : ∀ p ∈ q :: rest, p.tree.Within (Statement.union all (q :: rest)).parameters := fun p hp =>
      p.within_tree (subset_of_flatMap (List.Subset.refl _) hp)
    refine .branch (List.nil_subset _) (List.forall_mem_cons.mpr ⟨hparts q List.mem_cons_self, fun t ht => ?_⟩)
    obtain ⟨p, hp, rfl⟩ := List.mem_map.mp ht
    exact .branch (List.nil_subset _) (List.forall_mem_singleton.mpr (hparts p (List.mem_cons_of_mem q hp)))

end Occurrences
end GraphQuery
