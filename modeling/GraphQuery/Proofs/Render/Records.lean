import GraphQuery.Proofs.Render.Statement
import GraphQuery.Proofs.Traversal.Trace

/-! What is reported. No traversal of a statement goes wrong, and what rendering reports is no error. -/
namespace GraphQuery

section Levels

variable (t : ParameterTable) (p : Parameter)

theorem ParameterTable.level_nameOf : ∀ r ∈ (t.nameOf p).records, r.level = .trace := by
  unfold nameOf
  split
  · simp
  · split
    · simp
    · simp [NameSource.record]

theorem ParameterTable.level_bind (name : String) (value : Option Json) :
    ∀ r ∈ (t.bind name value).records, r.level = .warn := by
  unfold bind
  split
  · simp
  · simp
  · split
    · simp
    · split <;> simp [conflict]

/-- The registration of a parameter reports its name or a conflict. -/
theorem ParameterTable.level_register : ∀ r ∈ (t.register p).records, r.level = .trace ∨ r.level = .warn :=
  List.forall_mem_append.mpr ⟨fun r hr => .inl (t.level_nameOf p r hr), fun r hr => .inr (level_bind _ _ _ r hr)⟩

end Levels

namespace Render

/-- A traversal of a tree has nothing to report. -/
theorem failure_ofTree {σ : Type} (v : Visitor σ) (tree : SyntaxTree) (s : σ) (what : String) :
    failure what (Traversal.ofTree v tree s) = [] := by
  rw [Traversal.ofTree_eq_walk]
  rfl

namespace Writer

section Records

variable (w : Writer) (c : Construct) (p : Place) (ancestors : List Place)

theorem records_separate : (w.separate ancestors).records = w.records := by
  unfold separate
  split
  · split <;> rfl
  · rfl

theorem records_accept : (accept p ancestors w).2.records = w.records := by
  unfold accept
  split
  · rfl
  · dsimp only
    split
    · split <;> exact records_separate w ancestors
    · exact records_separate w ancestors

theorem records_note : (w.note c).records =
    match c with
    | .parameter p => w.records ++ (w.table.register p).records
    | _ => w.records := by
  cases c with
  | node name =>
    cases name with
    | none => rfl
    | some n =>
      simp only [note]
      split <;> rfl
  | parameter p => rfl
  | aliased e name => rfl
  | _ =>
    rw [note_eq rfl]
    split <;> rfl

theorem records_settle : (w.settle c).records = w.records := by
  unfold settle
  split
  · rfl
  · split <;> rfl

end Records

/-- The writer keeps no error in its records. -/
theorem preserves_levels : visitor.Preserves (fun _ => True) fun w => ∀ r ∈ w.records, r.level ≠ .error where
  accept p ancestors w h := by
    have hrecords : (visitor.accept p ancestors w).2.records = w.records := records_accept w p ancestors
    rwa [hrecords]
  enter p ancestors w _ h := by
    change ∀ r ∈ ((w.write _).note _).records, _
    rw [records_note]
    split
    · refine List.forall_mem_append.mpr ⟨h, fun r hr he => ?_⟩
      obtain hl | hl := ParameterTable.level_register _ _ r hr <;> simp [hl] at he
    · exact h
  leave p ancestors w _ h := by
    change ∀ r ∈ ((w.write _).settle _).records, _
    rw [records_settle]
    exact h
  afterLeave p ancestors w h := h

end Writer
end Render

namespace Statement

/-- Behind the records of the writer there is at most the text of the statement itself. -/
theorem records_render (s : Statement) (settings : RenderSettings) : (s.render settings).records =
    (Render.Writer.visitor.walk [] s.tree [] (s.initial settings.stem)).records ++
      if settings.logStatements then [(s.render settings).value.record] else [] := by
  have hnames : Render.failure "Parameter collection" (Render.namesIn s.tree) = [] :=
    Render.failure_ofTree _ _ _ _
  rw [render, Render.ofTree, hnames, Render.failure_ofTree, Render.state_namesIn, Traversal.ofTree_eq_walk,
    List.nil_append, List.append_nil]
  rfl

/-- Whatever a visitor keeps and decides, a traversal of a statement succeeds, with no open place and
nothing to report, and its calls are those of a visit: each place that is accepted is entered once, then
its children are visited in order, and then it is left, with the places around it up to the root as its
ancestors, while a place that is refused brings no further calls. So rendering never reports an error. -/
theorem traversal_nested {σ : Type} (v : Visitor σ) (statement : Statement) (s : σ) :
    let t := Traversal.ofTree v statement.tree s
    let traced := (Traversal.ofTree v.traced statement.tree (s, [])).state
    (t.finish = .ok () ∧ t.errors = [] ∧ t.stack = [] ∧ ∀ what, Render.failure what t = []) ∧
    traced.1 = t.state ∧ v.Visits [⟨[], statement.tree⟩] [] s traced.2 t.state ∧
    Event.Nested statement.tree traced.2 ∧
    ∀ settings, ∀ r ∈ (statement.render settings).records, r.level ≠ .error := by
  intro t traced
  have ht : t = ⟨[], [], v.walk [] statement.tree [] s⟩ := Traversal.ofTree_eq_walk v statement.tree s
  have htraced : traced = v.traced.walk [] statement.tree [] (s, []) :=
    congrArg Traversal.state (Traversal.ofTree_eq_walk v.traced statement.tree (s, []))
  obtain ⟨es, s', hwalk, hvisits⟩ := v.walk_traced [] statement.tree [] s []
  have hstate : s' = t.state := by
    have hprojects := v.projects_traced.walk [] statement.tree [] (s, [])
    rw [hwalk] at hprojects
    exact hprojects.trans (congrArg Traversal.state ht).symm
  rw [htraced, hwalk, List.nil_append]
  refine ⟨⟨?_, ?_, ?_, fun what => Render.failure_ofTree _ _ _ what⟩, hstate, hstate ▸ hvisits, hvisits.nested,
    fun settings r hr => ?_⟩
  · rw [ht]
    rfl
  · rw [ht]
  · rw [ht]
  · rw [records_render] at hr
    have hwriter := Render.Writer.preserves_levels.walk [] statement.tree [] (statement.initial settings.stem)
      (fun _ _ => trivial) (by simp [initial, Render.Writer.new])
    obtain hr | hr := List.mem_append.mp hr
    · exact hwriter r hr
    · split at hr
      · rw [List.mem_singleton.mp hr]
        exact nofun
      · exact absurd hr List.not_mem_nil

end Statement
end GraphQuery
