import GraphQuery.Proofs.Render.Statement

/-! The text of a statement in chunks. A recording writer writes as the writer does and keeps what
every callback adds to the text, together with the construct that was entered with it. -/
namespace GraphQuery

/-- What stands in the second text behind the first. -/
def Text.added (before after : String) : String :=
  String.ofList (after.toList.drop before.toList.length)

@[simp] theorem Text.added_append (s t : String) : Text.added s (s ++ t) = t := by
  simp [Text.added]

/-- A piece of written text. Separators and all that stands behind a construct have no source. -/
structure Chunk where
  source : Option Construct
  text : String

namespace Chunk

def parameter? (c : Chunk) : Option Parameter := c.source.bind Construct.parameter?

/-- The parameter of the chunk with the text under which it is written. -/
def occurrence? (c : Chunk) : Option (Parameter × String) := c.parameter?.map fun p => (p, c.text)

end Chunk

namespace Render

open Writer

namespace Writer

variable (w : Writer) (c : Construct) (p : Place) (ancestors : List Place)

theorem text_separate : ∃ t, (w.separate ancestors).text = w.text ++ t ∧ Text.Plain t := by
  unfold separate
  split
  · split
    · exact ⟨"", String.append_empty.symm, by decide⟩
    · exact ⟨_, rfl, .ite (by decide) (by decide)⟩
  · exact ⟨"", String.append_empty.symm, by decide⟩

/-- In front of a construct the writer writes a separator, and if it refuses it, an alias. -/
theorem text_accept : ∃ t, (accept p ancestors w).2.text = w.text ++ t ∧ Text.Plain t := by
  obtain ⟨t, ht, hplain⟩ := text_separate w ancestors
  unfold accept
  split
  · exact ⟨"", String.append_empty.symm, by decide⟩
  · dsimp only
    split
    · next e name _ =>
      split
      · refine ⟨t ++ name.text, ?_, hplain.append (Text.plain_identifier name)⟩
        rw [text_write, ht, String.append_assoc]
      · exact ⟨t, ht, hplain⟩
    · exact ⟨t, ht, hplain⟩

theorem text_note : (w.note c).text = w.text := by
  cases c with
  | node name =>
    cases name with
    | none => rfl
    | some n =>
      unfold note
      dsimp only
      split <;> rfl
  | _ => rfl

theorem text_settle : (w.settle c).text = w.text := by
  unfold settle
  split
  · rfl
  · split <;> rfl

theorem text_enter : (enter p ancestors w).text = w.text ++ openingText p.tree.construct ancestors w :=
  text_note _ _

theorem text_leave : (leave p ancestors w).text = w.text ++ closingText p.tree.construct ancestors :=
  text_settle _ _

theorem table_enter : (enter p ancestors w).table =
    match p.tree.construct with
    | .parameter p => (w.table.register p).value.2
    | _ => w.table := table_note _ _

theorem table_leave : (leave p ancestors w).table = w.table := table_settle _ _

end Writer

/-- A writer and what it has written. -/
structure Recorder where
  writer : Writer
  chunks : List Chunk

namespace Recorder

/-- Go on to a writer, and keep what it has added. -/
def record (r : Recorder) (source : Option Construct) (w : Writer) : Recorder :=
  ⟨w, r.chunks ++ [⟨source, Text.added r.writer.text w.text⟩]⟩

def visitor : Visitor Recorder where
  accept p ancestors r :=
    let (accepted, w) := Writer.visitor.accept p ancestors r.writer
    (accepted, r.record none w)
  enter p ancestors r := r.record (some p.tree.construct) (Writer.visitor.enter p ancestors r.writer)
  leave p ancestors r := r.record none (Writer.visitor.leave p ancestors r.writer)
  afterLeave _ _ r := r

theorem projects : visitor.Projects writer Writer.visitor where
  accept _ _ _ := rfl
  enter _ _ _ := rfl
  leave _ _ _ := rfl
  afterLeave _ _ _ := rfl

/-- The chunks make up the text, and their parameters have been registered one after the other, each
written behind a dollar sign under the name that it was given. -/
structure Faithful (start : ParameterTable) (ps : List Parameter) (r : Recorder) : Prop where
  text : r.writer.text = String.join (r.chunks.map Chunk.text)
  table : r.writer.table = (start.registerAll (r.chunks.filterMap Chunk.parameter?)).value.2
  names : (r.chunks.filterMap Chunk.occurrence?).map Prod.snd =
    (start.registerAll (r.chunks.filterMap Chunk.parameter?)).value.1.map fun name => "$" ++ name
  parameters : ∀ p ∈ r.chunks.filterMap Chunk.parameter?, p ∈ ps

theorem parameters_record (r : Recorder) (source : Option Construct) (w : Writer) :
    (r.record source w).chunks.filterMap Chunk.parameter? =
      r.chunks.filterMap Chunk.parameter? ++ (source.bind Construct.parameter?).toList := by
  have hchunk : Chunk.parameter? ⟨source, Text.added r.writer.text w.text⟩ = source.bind Construct.parameter? := rfl
  rw [record, List.filterMap_append]
  cases h : source.bind Construct.parameter? <;> simp [hchunk, h]

section Faithful

variable {start : ParameterTable} {ps : List Parameter} {r : Recorder} {w : Writer} {t : String}

/-- A chunk without a parameter. -/
theorem Faithful.record_other (h : r.Faithful start ps) {source : Option Construct}
    (hs : source.bind Construct.parameter? = none) (ht : w.text = r.writer.text ++ t)
    (htable : w.table = r.writer.table) : (r.record source w).Faithful start ps := by
  have hp : (Chunk.mk source (Text.added r.writer.text w.text)).parameter? = none := hs
  have hps : (r.record source w).chunks.filterMap Chunk.parameter? =
      r.chunks.filterMap Chunk.parameter? := by
    rw [parameters_record, hs, Option.toList_none, List.append_nil]
  have hos : (r.record source w).chunks.filterMap Chunk.occurrence? =
      r.chunks.filterMap Chunk.occurrence? := by
    simp [record, Chunk.occurrence?, hp]
  refine ⟨?_, ?_, ?_, ?_⟩
  · simp [record, ht, h.text]
  · rw [hps]
    exact htable.trans h.table
  · rw [hos, hps]
    exact h.names
  · rw [hps]
    exact h.parameters

/-- A chunk with a parameter. -/
theorem Faithful.record_parameter (h : r.Faithful start ps) {p : Parameter} (hp : p ∈ ps)
    (ht : w.text = r.writer.text ++ ("$" ++ (r.writer.table.register p).value.1))
    (htable : w.table = (r.writer.table.register p).value.2) :
    (r.record (some (.parameter p)) w).Faithful start ps := by
  have hps : (r.record (some (.parameter p)) w).chunks.filterMap Chunk.parameter? =
      r.chunks.filterMap Chunk.parameter? ++ [p] := parameters_record r _ w
  have hos : (r.record (some (.parameter p)) w).chunks.filterMap Chunk.occurrence? =
      r.chunks.filterMap Chunk.occurrence? ++ [(p, "$" ++ (r.writer.table.register p).value.1)] := by
    simp [record, Chunk.occurrence?, Chunk.parameter?, Construct.parameter?, ht]
  refine ⟨?_, ?_, ?_, ?_⟩
  · simp [record, ht, h.text]
  · rw [hps, ParameterTable.registerAll_append, ← h.table]
    exact htable
  · rw [hps, hos, ParameterTable.registerAll_append, ← h.table, List.map_append, h.names]
    simp [ParameterTable.registerAll]
  · rw [hps]
    intro q hq
    obtain hq | hq := List.mem_append.mp hq
    · exact h.parameters q hq
    · exact List.mem_singleton.mp hq ▸ hp

end Faithful

theorem preserves_faithful (start : ParameterTable) (ps : List Parameter) :
    visitor.Preserves (fun c => ∀ p ∈ c.parameter?, p ∈ ps) (Faithful start ps) where
  accept p ancestors r h := by
    obtain ⟨t, ht, -⟩ := text_accept r.writer p ancestors
    exact h.record_other rfl ht (table_accept r.writer)
  enter p ancestors r hc h := by
    have ht := text_enter r.writer p ancestors
    have htable := table_enter r.writer p ancestors
    cases hp : p.tree.construct with
    | parameter q =>
      rw [hp] at ht htable hc
      change (r.record (some p.tree.construct) _).Faithful start ps
      rw [hp]
      exact h.record_parameter (hc q rfl) ht htable
    | _ =>
      rw [hp] at htable
      exact h.record_other (by simp [hp, Construct.parameter?]) ht htable
  leave p ancestors r _ h :=
    h.record_other rfl (text_leave r.writer p ancestors) (table_leave r.writer p ancestors)
  afterLeave _ _ _ h := h

end Recorder
end Render

namespace Statement

/-- What recording leads to. -/
def recorded (s : Statement) (stem : String) : Render.Recorder :=
  Render.Recorder.visitor.walk [] s.tree [] ⟨s.initial stem, []⟩

/-- What is written of a statement, piece by piece. -/
def chunks (s : Statement) (stem : String) : List Chunk := (s.recorded stem).chunks

end Statement
end GraphQuery
