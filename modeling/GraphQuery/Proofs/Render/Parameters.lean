import GraphQuery.Proofs.Render.Chunks

/-! The names of the written parameters. The names that are collected before the writing come from
the whole statement and those that are written from what is not left out, so a generated name meets
no named parameter of the statement, be it written or not. -/
namespace GraphQuery

open NameSource (freeIndex)

theorem mem_parameterNames {s : Statement} {p : Parameter} {n : Identifier} (hp : p ∈ s.tree.parameters)
    (hn : p.name? = some n) : n.text ∈ s.parameterNames := by
  have h : s.parameterNames = gather [] s.tree.parameters := by
    rw [← Render.state_namesIn, Render.namesIn, Traversal.ofTree_eq_walk, Render.walk_nameVisitor]
  rw [h]
  exact mem_foldl_addName.mpr (.inr (List.mem_filterMap.mpr ⟨p, hp, by rw [hn]; rfl⟩))

theorem SyntaxTree.mem_parameters {t : SyntaxTree} {c : Construct} {p : Parameter} (hc : c ∈ t.constructs)
    (hp : p ∈ c.parameter?) : p ∈ t.parameters := List.mem_filterMap.mpr ⟨c, hc, hp⟩

namespace Statement

variable (s : Statement) (stem : String)

/-- The parameters as they are written, each with its text, in the order of the text. -/
def writtenParameters : List (Parameter × String) := (s.chunks stem).filterMap Chunk.occurrence?

theorem recorded_faithful :
    (s.recorded stem).Faithful (s.initial stem).table s.tree.parameters := by
  refine (Render.Recorder.preserves_faithful _ _).walk [] s.tree [] _ (fun c hc p hp => ?_) ?_
  · exact SyntaxTree.mem_parameters hc hp
  · exact ⟨rfl, rfl, rfl, by simp⟩

/-- Recording does not change what is written. -/
theorem writer_recorded :
    (s.recorded stem).writer = Render.Writer.visitor.walk [] s.tree [] (s.initial stem) :=
  Render.Recorder.projects.walk [] s.tree [] _

/-- The text of a statement is made up of its chunks. -/
theorem text_eq_chunks (settings : RenderSettings) : (s.render settings).value.text =
    Text.trimmed (String.join ((s.chunks settings.stem).map Chunk.text)) := by
  rw [text_render, ← writer_recorded, (s.recorded_faithful settings.stem).text]
  rfl

theorem parameters_render (settings : RenderSettings) : (s.render settings).value.parameters =
    (s.recorded settings.stem).writer.table.values := by
  rw [writer_recorded, render, Render.ofTree, Render.state_namesIn, Traversal.ofTree_eq_walk]
  rfl

theorem map_fst_occurrences (cs : List Chunk) :
    (cs.filterMap Chunk.occurrence?).map Prod.fst = cs.filterMap Chunk.parameter? := by
  rw [List.map_filterMap]
  refine List.filterMap_congr fun c _ => ?_
  cases h : c.parameter? <;> simp [Chunk.occurrence?, h]

/-- The parameters that are written, in the order of the text. -/
def occurring : List Parameter := (s.writtenParameters stem).map Prod.fst

theorem occurring_eq : s.occurring stem = (s.chunks stem).filterMap Chunk.parameter? :=
  map_fst_occurrences _

/-- The table in the end has assigned the names of all parameters that are written. -/
theorem table_recorded : ParameterTable.Assigned stem s.parameterNames (s.occurring stem)
    (s.recorded stem).writer.table := by
  have h := (ParameterTable.Assigned.start stem s.parameterNames).registerAll (s.occurring stem)
  rw [(s.recorded_faithful stem).table]
  rw [occurring_eq] at h ⊢
  exact h

/-- Every parameter is written behind a dollar sign under the name assigned to it. -/
theorem map_snd_written : (s.writtenParameters stem).map Prod.snd =
    (s.occurring stem).map fun p => "$" ++ assignedName stem s.parameterNames (s.occurring stem) p.key := by
  have h := (ParameterTable.Assigned.start stem s.parameterNames).names_registerAll (s.occurring stem)
  have hnames := (s.recorded_faithful stem).names
  rw [List.nil_append] at h
  rw [occurring_eq] at h ⊢
  refine hnames.trans ?_
  refine (congrArg (List.map fun name => "$" ++ name) h).trans ?_
  rw [List.map_map]
  rfl

theorem text_of_written {o : Parameter × String} (ho : o ∈ s.writtenParameters stem) :
    o.2 = "$" ++ assignedName stem s.parameterNames (s.occurring stem) o.1.key := by
  have h := s.map_snd_written stem
  rw [occurring, List.map_map] at h
  exact List.map_inj_left.mp h o ho

theorem reserved_of_occurring {n : Identifier} (hn : .named n ∈ (s.occurring stem).map Parameter.key) :
    n.text ∈ s.parameterNames := by
  obtain ⟨p, hp, hk⟩ := List.mem_map.mp hn
  rw [occurring_eq] at hp
  exact mem_parameterNames ((s.recorded_faithful stem).parameters p hp) (Parameter.name?_eq_some.mpr hk)

theorem mem_keys_of_written {o : Parameter × String} (ho : o ∈ s.writtenParameters stem) :
    o.1.key ∈ (s.occurring stem).map Parameter.key :=
  List.mem_map_of_mem (List.mem_map_of_mem ho)

/-- How the parameters of a statement are written in its text. A named parameter has its own name,
the k-th of those without name has the k-th generated name that is none of the names in the
statement, different parameters have different names, and the values that go with the text are
listed under exactly the written names, in the order in which they are first written. -/
theorem written_parameters (settings : RenderSettings) :
    let stem := settings.stem
    let written := s.writtenParameters stem
    (s.render settings).value.text = Text.trimmed (String.join ((s.chunks stem).map Chunk.text)) ∧
    (∀ o ∈ written, ∀ n, o.1.key = .named n → o.2 = "$" ++ n.text) ∧
    (∀ o ∈ written, ∀ o' ∈ written, o.2 = o'.2 ↔ o.1.key = o'.1.key) ∧
    (∀ o ∈ written, ∀ id k, o.1.key = .anonymous id → (identities (written.map Prod.fst))[k]? = some id →
      o.2 = "$" ++ (stem ++ toString (freeIndex stem s.parameterNames k))) ∧
    (s.render settings).value.parameters.map (fun e => "$" ++ e.1) = (written.map Prod.snd).eraseDups := by
  intro stem written
  refine ⟨s.text_eq_chunks settings, fun o ho n hn => ?_, fun o ho o' ho' => ?_,
    fun o ho id k hid hk => ?_, ?_⟩
  · rw [s.text_of_written stem ho, hn]
    rfl
  · rw [s.text_of_written stem ho, s.text_of_written stem ho',
      ← assignedName_inj (s.mem_keys_of_written stem ho) (fun n => s.reserved_of_occurring stem)
        (s.mem_keys_of_written stem ho')]
    exact String.append_right_inj "$"
  · rw [s.text_of_written stem ho, hid, assignedName]
    obtain ⟨hlt, hget⟩ := List.getElem?_eq_some_iff.mp hk
    have hindex : (identities (s.occurring stem)).idxOf id = k := by
      rw [← hget]
      exact (nodup_eraseDups _).idxOf_getElem k hlt
    rw [hindex]
  · have hkeys := congrArg (List.map fun name => "$" ++ name) (s.table_recorded stem).keys_eq
    rw [List.map_map, ← eraseDups_map fun _ _ => (String.append_right_inj "$").mp, List.map_map] at hkeys
    rw [s.parameters_render, s.map_snd_written]
    exact hkeys

end Statement
end GraphQuery
