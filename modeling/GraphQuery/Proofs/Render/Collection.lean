import GraphQuery.Proofs.Parameter.Correspondence
import GraphQuery.Proofs.Render.Parameters

/-! The names that are collected before a statement is written. The collection meets every parameter of
the statement, and the parameters that are written are met in the order of the text. -/
namespace GraphQuery

namespace Render.Recorder

section Callbacks

variable (r : Recorder) (p : Place) (ancestors : List Place)

theorem parameters_accept :
    (visitor.accept p ancestors r).2.chunks.filterMap Chunk.parameter? = r.chunks.filterMap Chunk.parameter? :=
  (parameters_record r none _).trans (List.append_nil _)

theorem parameters_enter : (visitor.enter p ancestors r).chunks.filterMap Chunk.parameter? =
    r.chunks.filterMap Chunk.parameter? ++ p.tree.construct.parameter?.toList :=
  parameters_record r (some p.tree.construct) _

theorem parameters_leave :
    (visitor.afterLeave p ancestors (visitor.leave p ancestors r)).chunks.filterMap Chunk.parameter? =
      r.chunks.filterMap Chunk.parameter? :=
  (parameters_record r none _).trans (List.append_nil _)

end Callbacks

mutual

/-- A walk writes parameters of the tree in the order in which they stand there. -/
theorem walk_parameters (path : List Nat) (tree : SyntaxTree) (ancestors : List Place) (r : Recorder) :
    ∃ ps, ps.Sublist tree.parameters ∧ (visitor.walk path tree ancestors r).chunks.filterMap Chunk.parameter? =
      r.chunks.filterMap Chunk.parameter? ++ ps := by
  match tree with
  | .branch c ts =>
    have hkept := parameters_accept r ⟨path, .branch c ts⟩ ancestors
    cases haccept : visitor.accept ⟨path, .branch c ts⟩ ancestors r with
    | mk accepted r' =>
    rw [haccept] at hkept
    cases accepted with
    | false =>
      rw [visitor.walk_of_refused path ancestors r haccept]
      exact ⟨[], List.nil_sublist _, hkept.trans (List.append_nil _).symm⟩
    | true =>
      obtain ⟨ps, hps, hwritten⟩ := walkAll_parameters path 0 ts (⟨path, .branch c ts⟩ :: ancestors)
        (visitor.enter ⟨path, .branch c ts⟩ ancestors r')
      refine ⟨c.parameter?.toList ++ ps, ?_, ?_⟩
      · rw [SyntaxTree.parameters_branch]
        exact (List.Sublist.refl _).append hps
      · rw [visitor.walk_of_accepted path ancestors r haccept, parameters_leave, hwritten, parameters_enter,
          hkept, List.append_assoc]
        rfl
termination_by structural tree

theorem walkAll_parameters (path : List Nat) (index : Nat) (trees : List SyntaxTree) (ancestors : List Place)
    (r : Recorder) : ∃ ps, ps.Sublist (trees.flatMap SyntaxTree.parameters) ∧
      (visitor.walkAll path index trees ancestors r).chunks.filterMap Chunk.parameter? =
        r.chunks.filterMap Chunk.parameter? ++ ps := by
  match trees with
  | [] => exact ⟨[], .slnil, (List.append_nil _).symm⟩
  | t :: rest =>
    obtain ⟨ps, hps, hfirst⟩ := walk_parameters (index :: path) t ancestors r
    obtain ⟨qs, hqs, hrest⟩ := walkAll_parameters path (index + 1) rest ancestors
      (visitor.walk (index :: path) t ancestors r)
    refine ⟨ps ++ qs, ?_, ?_⟩
    · rw [List.flatMap_cons]
      exact hps.append hqs
    · rw [Visitor.walkAll_cons, hrest, hfirst, List.append_assoc]
termination_by structural trees

end

end Render.Recorder

theorem appendRelation_sublist : AppendRelation List.Sublist where
  refl := List.Sublist.refl
  append := List.Sublist.append

/-- Hop after hop, a chain leaves out the left nodes. -/
theorem sublist_hops (rs : List Relationship) : ((rs.flatMap Relationship.hop).flatMap SyntaxTree.parameters).Sublist
    (rs.flatMap Relationship.parameters) := by
  rw [List.flatMap_assoc]
  refine appendRelation_sublist.flatMap rs fun r => ?_
  rw [r.flatMap_hop, Relationship.parameters, List.append_assoc]
  exact List.sublist_append_right _ _

theorem Chain.sublist_tree (c : Chain) :
    c.tree.parameters.Sublist (c.relationships.flatMap Relationship.parameters) := by
  obtain ⟨r, rs, hc⟩ := List.exists_cons_of_ne_nil c.relationships_ne_nil
  have hfirst : r.parameters = r.left.parameters ++ r.hop.flatMap SyntaxTree.parameters := by
    rw [r.flatMap_hop, Relationship.parameters, List.append_assoc]
  rw [c.parameters_tree hc, hc, List.flatMap_cons, List.flatMap_append, List.flatMap_cons, hfirst,
    List.append_assoc]
  exact (List.Sublist.refl _).append ((List.Sublist.refl _).append (sublist_hops rs))

namespace Statement

variable (s : Statement)

/-- The parameters that are written are met in the order of the text. -/
theorem occurring_sublist (stem : String) : (s.occurring stem).Sublist s.parameters := by
  obtain ⟨ps, hps, hwritten⟩ := Render.Recorder.walk_parameters [] s.tree [] ⟨s.initial stem, []⟩
  have hoccurring : s.occurring stem = ps := (s.occurring_eq stem).trans hwritten
  rw [hoccurring]
  exact hps.trans (appendRelation_sublist.statement Chain.sublist_tree s)

theorem mem_parameterNames_iff {x : String} :
    x ∈ s.parameterNames ↔ ∃ p ∈ s.parameters, ∃ n, p.key = .named n ∧ n.text = x := by
  simp only [parameterNames, List.mem_eraseDups, List.mem_filterMap, Option.map_eq_some_iff,
    Parameter.name?_eq_some]

/-- The collection of the names of a statement comes to its end without an error. The names are those of
all the named parameters of the statement, written or not, each name once and in the order in which the
names first occur. What is written of the parameters is written in the same order. -/
theorem collected_names (s : Statement) :
    let collected := Render.namesIn s.tree
    collected.finish = .ok () ∧
      (∀ x, x ∈ collected.state ↔ ∃ p ∈ s.parameters, ∃ n, p.key = .named n ∧ n.text = x) ∧
      collected.state.Nodup ∧
      collected.state = ((s.parameters.filterMap Parameter.name?).map Identifier.text).eraseDups ∧
      ∀ stem, (s.occurring stem).Sublist s.parameters := by
  intro collected
  have hstate : collected.state = s.parameterNames := Render.state_namesIn s
  refine ⟨?_, fun x => ?_, ?_, ?_, s.occurring_sublist⟩
  · have hwalk : collected = ⟨[], [], _⟩ := Traversal.ofTree_eq_walk Render.nameVisitor s.tree []
    rw [hwalk]
    rfl
  · rw [hstate]
    exact s.mem_parameterNames_iff
  · rw [hstate]
    exact nodup_eraseDups _
  · rw [hstate, parameterNames, List.map_filterMap]

end Statement
end GraphQuery
