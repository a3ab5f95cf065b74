import GraphQuery.Proofs.Parameter.Correspondence
import GraphQuery.Proofs.Parameter.Replacement
import GraphQuery.Proofs.Render.Parameters
import GraphQuery.Proofs.Render.Records

/-! What rendering does not depend on. The writer decides by the keys of parameters, which it compares
with each other only, and by the values of equal parameters, so a statement with other parameters in the
places of its own is written alike, as long as these are equal and different where its own are. -/
namespace GraphQuery

/-- What replacing must keep of the parameters of a statement. -/
structure Corresponds (f : Parameter → Parameter) (ps : List Parameter) : Prop extends KeepsKeys f ps where
  same : KeepsSame f ps ps

namespace Render

@[simp] theorem construct_map (m : Construct → Construct) (t : SyntaxTree) : (t.map m).construct = m t.construct := by
  cases t
  simp [SyntaxTree.construct]

namespace Writer

variable {f : Parameter → Parameter} {ps : List Parameter} {c : Construct}

section Places

variable (f) (c) (ancestors : List Place)

@[simp] theorem isSeparated_mapParameters : (c.mapParameters f).isSeparated = c.isSeparated := by
  cases c <;> rfl

@[simp] theorem comparator?_mapParameters : (c.mapParameters f).comparator? = c.comparator? := by
  cases c <;> rfl

theorem isSeparated_map : isSeparated (ancestors.map (Place.map (Construct.mapParameters f))) =
    isSeparated ancestors := by
  cases ancestors with
  | nil => rfl
  | cons parent rest => simp [isSeparated, Place.map]

theorem needsParentheses_map (op : Comparator) :
    needsParentheses op (ancestors.map (Place.map (Construct.mapParameters f))) =
      needsParentheses op ancestors := by
  rw [needsParentheses_eq, needsParentheses_eq]
  cases ancestors with
  | nil => rfl
  | cons parent rest => simp [enclosing?, Place.map]

theorem closingText_map :
    closingText (c.mapParameters f) (ancestors.map (Place.map (Construct.mapParameters f))) =
      closingText c ancestors := by
  cases c with
  | comparison op => simp only [Construct.mapParameters, closingText, needsParentheses_map]
  | _ => rfl

end Places

/-- The second writer has written the same text as the first one, with corresponding parameters. -/
structure Mirrors (f : Parameter → Parameter) (ps : List Parameter) (w v : Writer) : Prop where
  text : v.text = w.text
  nodes : v.nodes = w.nodes
  aliases : v.aliases = w.aliases.map fun a => (a.1.mapParameters f, a.2)
  within : ∀ a ∈ w.aliases, a.1.parameters ⊆ ps
  skipping : v.skipping = w.skipping
  counters : v.counters = w.counters
  table : ParameterTable.Alike f ps w.table v.table

namespace Mirrors

variable {w v : Writer}

theorem write (h : Mirrors f ps w v) (t : String) : Mirrors f ps (w.write t) (v.write t) :=
  { h with text := congrArg (· ++ t) h.text }

theorem separate (h : Mirrors f ps w v) (ancestors : List Place) :
    Mirrors f ps (w.separate ancestors)
      (v.separate (ancestors.map (Place.map (Construct.mapParameters f)))) := by
  unfold Writer.separate
  rw [isSeparated_map, h.counters]
  split
  · split
    · exact h
    · exact { h.write _ with counters := rfl }
  · exact h

/-- Aliased expressions are compared with their parameters, and corresponding ones are equal alike. -/
theorem isAliasWritten (h : Mirrors f ps w v) (hf : Corresponds f ps) {e : Expression} (he : e.parameters ⊆ ps)
    (name : Identifier) : v.isAliasWritten (e.mapParameters f) name = w.isAliasWritten e name := by
  rw [Writer.isAliasWritten, h.aliases, List.any_map, Writer.isAliasWritten, Bool.eq_iff_iff, List.any_eq_true,
    List.any_eq_true]
  refine exists_congr fun a => and_congr_right fun ha => ?_
  have hsame := a.1.same_mapParameters (f := f) e fun p hp q hq => hf.same p (h.within a ha hp) q (he hq)
  simp only [Function.comp_apply, hsame]

theorem openingText (h : Mirrors f ps w v) (hf : Corresponds f ps) (hc : c.parameters ⊆ ps)
    (ancestors : List Place) :
    Writer.openingText (c.mapParameters f) (ancestors.map (Place.map (Construct.mapParameters f))) v =
      Writer.openingText c ancestors w := by
  cases c with
  | unionPart all =>
    change Writer.openingText (.unionPart all) _ v = _
    rw [Writer.openingText, Writer.openingText, endsWithSpace, endsWithSpace, h.text]
  | node name =>
    cases name with
    | none => rfl
    | some n => simp only [Construct.mapParameters, Writer.openingText, h.nodes]
  | parameter p =>
    have hname := (h.table.register hf.toKeepsKeys (hc List.mem_cons_self)).1
    simp only [Construct.mapParameters, Writer.openingText, hname]
  | comparison op => simp only [Construct.mapParameters, Writer.openingText, needsParentheses_map]
  | _ => rfl

theorem note (h : Mirrors f ps w v) (hf : Corresponds f ps) (hc : c.parameters ⊆ ps) :
    Mirrors f ps (w.note c) (v.note (c.mapParameters f)) := by
  cases c with
  | node name =>
    cases name with
    | none => exact h
    | some n =>
      simp only [Construct.mapParameters, Writer.note, h.nodes]
      split
      · exact { h with skipping := rfl, nodes := rfl }
      · exact { h with skipping := rfl, nodes := rfl }
  | parameter p =>
    exact { h with table := (h.table.register hf.toKeepsKeys (hc List.mem_cons_self)).2 }
  | aliased e name =>
    refine { h with
      aliases := ?_
      within := List.forall_mem_append.mpr ⟨h.within, List.forall_mem_singleton.mpr hc⟩ }
    change v.aliases ++ [(e.mapParameters f, name)] = (w.aliases ++ [(e, name)]).map _
    rw [h.aliases, List.map_append, List.map_singleton]
  | _ =>
    simp only [Construct.mapParameters]
    rw [note_eq rfl, note_eq rfl]
    split
    · exact { h with counters := congrArg (0 :: ·) h.counters }
    · exact h

theorem settle (h : Mirrors f ps w v) (c : Construct) :
    Mirrors f ps (w.settle c) (v.settle (c.mapParameters f)) := by
  cases c with
  | node name => exact { h with skipping := rfl }
  | parameter _ | aliased _ _ => exact h
  | _ =>
    simp only [Construct.mapParameters]
    rw [settle_eq rfl, settle_eq rfl]
    split
    · exact { h with counters := congrArg List.tail h.counters }
    · exact h

end Mirrors

/-- The writer makes the same decisions about a statement with corresponding parameters. -/
theorem simulates_mapParameters (hf : Corresponds f ps) :
    visitor.Simulates (Construct.mapParameters f) (fun c => c.parameters ⊆ ps) (Mirrors f ps) visitor where
  accept p ancestors w v hc h := by
    change (Writer.accept p ancestors w).1 = (Writer.accept (p.map _) (ancestors.map _) v).1 ∧
      Mirrors f ps (Writer.accept p ancestors w).2 (Writer.accept (p.map _) (ancestors.map _) v).2
    have hsep := h.separate ancestors
    cases hw : w.skipping with
    | true =>
      have hv : v.skipping = true := h.skipping.trans hw
      simp only [Writer.accept, hw, hv, if_true]
      exact ⟨trivial, h⟩
    | false =>
      rw [accept_eq hw, accept_eq (h.skipping.trans hw), Place.map, construct_map]
      cases hconstruct : p.tree.construct with
      | aliased e name =>
        rw [hconstruct] at hc
        simp only [Construct.mapParameters, hsep.isAliasWritten hf hc]
        split
        · exact ⟨rfl, hsep.write _⟩
        · exact ⟨rfl, hsep⟩
      | _ => exact ⟨rfl, hsep⟩
  enter p ancestors w v hc h := by
    change Mirrors f ps ((w.write _).note _) ((v.write _).note _)
    rw [Place.map, construct_map, h.openingText hf hc]
    exact (h.write _).note hf hc
  leave p ancestors w v h := by
    change Mirrors f ps ((w.write _).settle _) ((v.write _).settle _)
    rw [Place.map, construct_map, closingText_map]
    exact (h.write _).settle _
  afterLeave p ancestors w v h := h

end Writer
end Render

/-- The same piece of text for another parameter. -/
def Chunk.mapParameters (f : Parameter → Parameter) (c : Chunk) : Chunk :=
  ⟨c.source.map (Construct.mapParameters f), c.text⟩

section Chunks

variable (f : Parameter → Parameter) (c : Chunk)

theorem Construct.parameter?_mapParameters (c : Construct) :
    (c.mapParameters f).parameter? = c.parameter?.map f := by
  cases c <;> rfl

theorem Chunk.parameter?_mapParameters : (c.mapParameters f).parameter? = c.parameter?.map f := by
  cases h : c.source <;> simp [mapParameters, parameter?, h, Construct.parameter?_mapParameters]

theorem Chunk.occurrence?_mapParameters :
    (c.mapParameters f).occurrence? = c.occurrence?.map fun o => (f o.1, o.2) := by
  rw [occurrence?, parameter?_mapParameters, occurrence?, Option.map_map, Option.map_map]
  rfl

end Chunks

namespace Render.Recorder

variable {f : Parameter → Parameter} {ps : List Parameter}

/-- The second recorder has written the same pieces of text as the first one, with corresponding parameters. -/
structure Mirrors (f : Parameter → Parameter) (ps : List Parameter) (r r' : Recorder) : Prop where
  writer : Writer.Mirrors f ps r.writer r'.writer
  chunks : r'.chunks = r.chunks.map (Chunk.mapParameters f)

theorem Mirrors.record {r r' : Recorder} {w v : Writer} (h : Mirrors f ps r r') (hw : Writer.Mirrors f ps w v)
    (source : Option Construct) :
    Mirrors f ps (r.record source w) (r'.record (source.map (Construct.mapParameters f)) v) := by
  refine ⟨hw, ?_⟩
  simp only [Recorder.record, h.chunks, h.writer.text, hw.text, List.map_append, List.map_singleton,
    Chunk.mapParameters]

theorem simulates_mapParameters (hf : Corresponds f ps) :
    visitor.Simulates (Construct.mapParameters f) (fun c => c.parameters ⊆ ps) (Mirrors f ps) visitor where
  accept p ancestors r r' hc h := by
    obtain ⟨haccepted, hw⟩ := (Writer.simulates_mapParameters hf).accept p ancestors _ _ hc h.writer
    exact ⟨haccepted, h.record hw none⟩
  enter p ancestors r r' hc h := by
    have hw := (Writer.simulates_mapParameters hf).enter p ancestors _ _ hc h.writer
    have hsource : (p.map (Construct.mapParameters f)).tree.construct = p.tree.construct.mapParameters f :=
      construct_map _ _
    change Mirrors f ps _ (r'.record (some _) _)
    rw [hsource]
    exact h.record hw (some p.tree.construct)
  leave p ancestors r r' h := h.record ((Writer.simulates_mapParameters hf).leave p ancestors _ _ h.writer) none
  afterLeave p ancestors r r' h := h

/-- What the writer has reported is what the registrations of its parameters have. -/
def Reported (start : ParameterTable) (r : Recorder) : Prop :=
  r.writer.records = (start.registerAll (r.chunks.filterMap Chunk.parameter?)).records

theorem Reported.record {start : ParameterTable} {r : Recorder} (h : Reported start r) {source : Option Construct}
    (hs : source.bind Construct.parameter? = none) {w : Writer} (hw : w.records = r.writer.records) :
    Reported start (r.record source w) := by
  rw [Reported, parameters_record, hs, Option.toList_none, List.append_nil]
  exact hw.trans h

theorem preserves_reported (start : ParameterTable) (ps : List Parameter) :
    visitor.Preserves (fun c => ∀ p ∈ c.parameter?, p ∈ ps)
      (fun r => r.Faithful start ps ∧ r.Reported start) where
  accept p ancestors r h := ⟨(preserves_faithful start ps).accept p ancestors r h.1,
    h.2.record rfl (Writer.records_accept r.writer p ancestors)⟩
  enter p ancestors r hc h := by
    refine ⟨(preserves_faithful start ps).enter p ancestors r hc h.1, ?_⟩
    have hrecords := Writer.records_note (r.writer.write (Writer.openingText p.tree.construct ancestors r.writer))
      p.tree.construct
    change Reported start (r.record (some p.tree.construct) (Writer.enter p ancestors r.writer))
    cases hp : p.tree.construct with
    | parameter q =>
      rw [hp] at hrecords
      have hregistered : (start.registerAll (r.chunks.filterMap Chunk.parameter? ++ [q])).records =
          r.writer.records ++ (r.writer.table.register q).records := by
        rw [ParameterTable.registerAll_append, ← h.2, ← h.1.table]
        exact congrArg (r.writer.records ++ ·) (List.append_nil _)
      rw [Reported, parameters_record]
      refine Eq.trans ?_ hregistered.symm
      change (Writer.enter p ancestors r.writer).records = _
      rw [Writer.enter, hp]
      exact hrecords
    | _ =>
      rw [hp] at hrecords
      refine h.2.record rfl ?_
      rw [Writer.enter, hp]
      exact hrecords
  leave p ancestors r hc h := ⟨(preserves_faithful start ps).leave p ancestors r hc h.1,
    h.2.record rfl (Writer.records_settle _ _)⟩
  afterLeave _ _ _ h := h

end Render.Recorder

/-- The same names are collected in corresponding statements. -/
theorem Render.simulates_nameVisitor {f : Parameter → Parameter} {ps : List Parameter} (hf : KeepsKeys f ps) :
    nameVisitor.Simulates (Construct.mapParameters f) (fun c => c.parameters ⊆ ps) Eq nameVisitor where
  accept _ _ _ _ _ h := ⟨rfl, h⟩
  enter p ancestors names names' hc h := by
    subst h
    have hconstruct : (p.map (Construct.mapParameters f)).tree.construct = p.tree.construct.mapParameters f :=
      construct_map _ _
    simp only [nameVisitor, hconstruct]
    cases hp : p.tree.construct with
    | parameter q =>
      rw [hp] at hc
      simp only [Construct.mapParameters, hf.name q (hc List.mem_cons_self)]
    | _ => rfl
  leave _ _ _ _ h := h
  afterLeave _ _ _ _ h := h

namespace Statement

section Registered

variable (s : Statement) (settings : RenderSettings)

/-- The values go with exactly the written names, in the order in which they are first written. -/
theorem names_parameters :
    (s.render settings).value.parameters.map (fun e => "$" ++ e.1) =
      ((s.writtenParameters settings.stem).map Prod.snd).eraseDups := by
  have hkeys := congrArg (List.map fun name => "$" ++ name) (s.table_recorded settings.stem).keys_eq
  rw [List.map_map, ← eraseDups_map fun _ _ => (String.append_right_inj "$").mp, List.map_map] at hkeys
  rw [s.parameters_render, s.map_snd_written]
  exact hkeys

/-- What a statement registers is registered one after the other, from an empty table on. -/
theorem registered_render :
    let registered := (ParameterTable.new (.new settings.stem) s.parameterNames).registerAll
      (s.occurring settings.stem)
    (s.render settings).value.parameters = registered.value.2.values ∧
      (Render.Writer.visitor.walk [] s.tree [] (s.initial settings.stem)).records = registered.records := by
  have h := (Render.Recorder.preserves_reported (s.initial settings.stem).table s.tree.parameters).walk [] s.tree []
    ⟨s.initial settings.stem, []⟩ (fun c hc p hp => SyntaxTree.mem_parameters hc hp)
    ⟨⟨rfl, rfl, rfl, by simp⟩, rfl⟩
  rw [occurring_eq, parameters_render, ← writer_recorded]
  exact ⟨congrArg ParameterTable.values h.1.table, h.2⟩

theorem occurring_subset (stem : String) : s.occurring stem ⊆ s.parameters := by
  rw [occurring_eq]
  exact fun p hp => s.within_tree.parameters ((s.recorded_faithful stem).parameters p hp)

/-- Where the values of the parameters depend on their keys alone, each written name has the value of its key. -/
theorem parameters_of_values {g : ParameterKey → Option Json}
    (hvalue : ∀ o ∈ s.writtenParameters settings.stem, o.1.value = g o.1.key) :
    (s.render settings).value.parameters.map (fun e => ("$" ++ e.1, e.2)) =
      ((s.writtenParameters settings.stem).map fun o => (o.2, o.1.key)).eraseDups.map
        fun e => (e.1, (g e.2).getD .null) := by
  have hvalues : (((ParameterTable.new (.new settings.stem) s.parameterNames).registerAll
      (s.occurring settings.stem)).value.2).values =
        ParameterTable.bindings settings.stem s.parameterNames (s.occurring settings.stem) g := by
    refine ParameterTable.values_registerAll _ (fun p hp => ?_) fun n => s.reserved_of_occurring settings.stem
    obtain ⟨o, ho, rfl⟩ := List.mem_map.mp hp
    exact hvalue o ho
  have hpairs : (s.writtenParameters settings.stem).map (fun o => (o.2, o.1.key)) =
      ((s.occurring settings.stem).map Parameter.key).map fun key =>
        ("$" ++ assignedName settings.stem s.parameterNames (s.occurring settings.stem) key, key) := by
    rw [occurring, List.map_map, List.map_map]
    refine List.map_congr_left fun o ho => ?_
    rw [s.text_of_written settings.stem ho]
    rfl
  rw [(s.registered_render settings).1, hvalues, hpairs, eraseDups_map fun _ _ he => (Prod.ext_iff.mp he).2,
    ParameterTable.bindings, List.map_map, List.map_map]
  rfl

end Registered

section Replaced

variable {s : Statement} {f : Parameter → Parameter} (hf : Corresponds f s.parameters) (stem : String)

include hf

theorem parameterNames_mapParameters : (s.mapParameters f).parameterNames = s.parameterNames := by
  have h := (Render.simulates_nameVisitor hf.toKeepsKeys).walk [] s.tree [] s.within_tree (Eq.refl [])
  rw [← Render.state_namesIn, ← Render.state_namesIn, Render.namesIn, Render.namesIn, Traversal.ofTree_eq_walk,
    Traversal.ofTree_eq_walk, tree_mapParameters]
  exact h.symm

/-- A statement with corresponding parameters is written in the same pieces. -/
theorem recorded_mapParameters :
    Render.Recorder.Mirrors f s.parameters (s.recorded stem) ((s.mapParameters f).recorded stem) := by
  have hinitial : (s.mapParameters f).initial stem = s.initial stem := by
    rw [initial, initial, parameterNames_mapParameters hf]
  rw [recorded, recorded, hinitial, tree_mapParameters]
  refine (Render.Recorder.simulates_mapParameters hf).walk [] s.tree [] s.within_tree ⟨?_, rfl⟩
  exact ⟨rfl, rfl, rfl, fun a ha => absurd ha List.not_mem_nil, rfl, rfl, .start _ _⟩

theorem writtenParameters_mapParameters : (s.mapParameters f).writtenParameters stem =
    (s.writtenParameters stem).map fun o => (f o.1, o.2) := by
  rw [writtenParameters, chunks, (recorded_mapParameters hf stem).chunks, List.filterMap_map, writtenParameters,
    List.map_filterMap]
  exact List.filterMap_congr fun c _ => c.occurrence?_mapParameters f

theorem text_mapParameters (settings : RenderSettings) :
    ((s.mapParameters f).render settings).value.text = (s.render settings).value.text := by
  rw [text_render, text_render, ← writer_recorded, ← writer_recorded,
    (recorded_mapParameters hf settings.stem).writer.text]

theorem names_mapParameters (settings : RenderSettings) :
    ((s.mapParameters f).render settings).value.parameters.map Prod.fst =
      (s.render settings).value.parameters.map Prod.fst := by
  have hwritten : ((s.mapParameters f).writtenParameters settings.stem).map Prod.snd =
      (s.writtenParameters settings.stem).map Prod.snd := by
    rw [writtenParameters_mapParameters hf, List.map_map]
    rfl
  have hnames : ((s.mapParameters f).render settings).value.parameters.map (fun e => "$" ++ e.1) =
      (s.render settings).value.parameters.map fun e => "$" ++ e.1 := by
    rw [names_parameters, names_parameters, hwritten]
  refine List.map_injective_iff.mpr (fun _ _ => (String.append_right_inj "$").mp) ?_
  rw [List.map_map, List.map_map]
  exact hnames

/-- With the values as they were nothing changes at all. -/
theorem render_mapParameters (hvalue : ∀ p ∈ s.parameters, (f p).value = p.value) (settings : RenderSettings) :
    (s.mapParameters f).render settings = s.render settings := by
  have hoccurring : (s.mapParameters f).occurring settings.stem = (s.occurring settings.stem).map f := by
    rw [occurring, writtenParameters_mapParameters hf, occurring, List.map_map, List.map_map]
    rfl
  obtain ⟨hvalues, hrecords⟩ := s.registered_render settings
  obtain ⟨hvalues', hrecords'⟩ := (s.mapParameters f).registered_render settings
  obtain ⟨hsameValues, hsameRecords⟩ := (ParameterTable.Alike.start (.new settings.stem) s.parameterNames).registerAll
    hf.toKeepsKeys hvalue rfl (s.occurring_subset settings.stem)
  rw [hoccurring, parameterNames_mapParameters hf] at hvalues' hrecords'
  have hvalue : ((s.mapParameters f).render settings).value = (s.render settings).value :=
    congrArg₂ Rendered.mk (text_mapParameters hf settings) (hvalues'.trans (hsameValues.trans hvalues.symm))
  have hreported : ((s.mapParameters f).render settings).records = (s.render settings).records := by
    rw [records_render, records_render, hvalue, hrecords', hsameRecords, hrecords]
  exact congrArg₂ Logged.mk hvalue hreported

end Replaced

end Statement

namespace ParameterKey

/-- The key with another identity. A name is a key without one. -/
def rename (ρ : Nat → Nat) : ParameterKey → ParameterKey
  | .named n => .named n
  | .anonymous id => .anonymous (ρ id)

end ParameterKey

namespace Parameter

/-- The parameter with the binding that a function assigns to its key. -/
def rebind (g : ParameterKey → Option Json) (p : Parameter) : Parameter := { p with value := g p.key }

@[simp] theorem key_rebind (g : ParameterKey → Option Json) (p : Parameter) : (p.rebind g).key = p.key := rfl

@[simp] theorem value_rebind (g : ParameterKey → Option Json) (p : Parameter) :
    (p.rebind g).value = g p.key := rfl

/-- The parameter with another identity: `ρ` says which without a name, and `σ` with one. -/
def rename (ρ : Nat → Nat) (σ : Parameter → Nat) (p : Parameter) : Parameter :=
  { p with id := if p.isAnonymous then ρ p.id else σ p }

theorem key_rename (ρ : Nat → Nat) (σ : Parameter → Nat) (p : Parameter) :
    (p.rename ρ σ).key = p.key.rename ρ := by
  unfold rename key isAnonymous
  cases p.name? <;> rfl

end Parameter

namespace Statement

/-- The statement with the bindings that a function assigns to the keys of its parameters. -/
def rebind (g : ParameterKey → Option Json) (s : Statement) : Statement :=
  s.mapParameters (Parameter.rebind g)

/-- The statement with other identities of its parameters: `ρ` says which without a name, and `σ` with one. -/
def renameIdentities (ρ : Nat → Nat) (σ : Parameter → Nat) (s : Statement) : Statement :=
  s.mapParameters (Parameter.rename ρ σ)

/-- New bindings keep equal what is equal, where parameters with one key are. -/
theorem corresponds_rebind {ps : List Parameter} (g : ParameterKey → Option Json)
    (consistent : ∀ p ∈ ps, ∀ q ∈ ps, p.key = q.key → p.same q = true) :
    Corresponds (Parameter.rebind g) ps where
  name _ _ := rfl
  key _ _ _ _ := Iff.rfl
  same p hp q hq := by
    by_cases hkey : p.key = q.key
    · rw [consistent p hp q hq hkey]
      simp only [Parameter.same, Parameter.key_rebind, Parameter.value_rebind, hkey, beq_self_eq_true]
      cases g q.key <;> simp [Json.same_self]
    · simp [Parameter.same, beq_eq_false_iff_ne.mpr hkey]

/-- Other identities keep equal and different what is, where different ones stay different. -/
theorem corresponds_rename {ps : List Parameter} (ρ : Nat → Nat) (σ : Parameter → Nat)
    (injective : ∀ i ∈ identities ps, ∀ j ∈ identities ps, ρ i = ρ j → i = j) :
    Corresponds (Parameter.rename ρ σ) ps := by
  have hkey : ∀ p ∈ ps, ∀ q ∈ ps, (p.rename ρ σ).key = (q.rename ρ σ).key ↔ p.key = q.key := by
    intro p hp q hq
    rw [Parameter.key_rename, Parameter.key_rename]
    cases hk : p.key with
    | named n => cases hl : q.key <;> simp [ParameterKey.rename]
    | anonymous i =>
      cases hl : q.key with
      | named m => simp [ParameterKey.rename]
      | anonymous j =>
        have hi : i ∈ identities ps := mem_identities.mpr (List.mem_map.mpr ⟨p, hp, hk⟩)
        have hj : j ∈ identities ps := mem_identities.mpr (List.mem_map.mpr ⟨q, hq, hl⟩)
        simp only [ParameterKey.rename, ParameterKey.anonymous.injEq]
        exact ⟨injective i hi j hj, congrArg ρ⟩
  refine ⟨⟨fun p _ => rfl, hkey⟩, fun p hp q hq => ?_⟩
  have hsame : ((p.rename ρ σ).key == (q.rename ρ σ).key) = (p.key == q.key) := by
    rw [Bool.eq_iff_iff, beq_iff_eq, beq_iff_eq]
    exact hkey p hp q hq
  rw [Parameter.same, hsame]
  rfl

/-- The values of parameters never reach the text. Where all occurrences of a parameter carry the same,
other bindings leave the text as it is, and the names of the parameters too, and each name goes with the
new binding of its key, which is null where that carries nothing. -/
theorem render_rebind (s : Statement) (g : ParameterKey → Option Json) (settings : RenderSettings)
    (consistent : ∀ p ∈ s.parameters, ∀ q ∈ s.parameters, p.key = q.key → p.same q = true) :
    let rendered := (s.render settings).value
    let rebound := ((s.rebind g).render settings).value
    rebound.text = rendered.text ∧
    rebound.parameters.map Prod.fst = rendered.parameters.map Prod.fst ∧
    rebound.parameters.map (fun e => ("$" ++ e.1, e.2)) =
      ((s.writtenParameters settings.stem).map fun o => (o.2, o.1.key)).eraseDups.map
        fun e => (e.1, (g e.2).getD .null) := by
  intro rendered rebound
  have hf := corresponds_rebind g consistent
  have hwritten := writtenParameters_mapParameters hf settings.stem
  refine ⟨text_mapParameters hf settings, names_mapParameters hf settings, ?_⟩
  have hvalues := parameters_of_values (s.rebind g) settings (g := g) (by
    intro o ho
    rw [rebind, hwritten] at ho
    obtain ⟨o, -, rfl⟩ := List.mem_map.mp ho
    rfl)
  refine hvalues.trans ?_
  rw [rebind, hwritten, List.map_map]
  rfl

/-- An aliased parameter that occurs twice is abbreviated whatever it carries, and a named one that carried
nothing is bound. -/
theorem render_rebind_repeated :
    let name : Identifier := ⟨"secret", by decide +kernel⟩
    let who : Identifier := ⟨"who", by decide +kernel⟩
    let p : Parameter := .anonymous 7 (.string "value")
    let column : Expression := .aliased (.parameter p) name
    let s : Statement := .single ⟨[.returning (.new false
      [column, column, .parameter ⟨8, some who, none⟩, .parameter p])]⟩
    let g : ParameterKey → Option Json := fun key => if key = .named who then some (.bool true) else none
    let rendered := (s.render .default).value
    let rebound := ((s.rebind g).render .default).value
    (∀ p ∈ s.parameters, ∀ q ∈ s.parameters, p.key = q.key → p.same q = true) ∧
    (rebound.text = rendered.text ∧ rebound.parameters.map Prod.fst = rendered.parameters.map Prod.fst ∧
      rebound.parameters.map (fun e => ("$" ++ e.1, e.2)) =
        ((s.writtenParameters NameSource.defaultStem).map fun o => (o.2, o.1.key)).eraseDups.map
          fun e => (e.1, (g e.2).getD .null)) ∧
    rebound.text = "RETURN $__p0 AS secret, secret, $who, $__p0" := by
  intro name who p column s g rendered rebound
  have consistent : ∀ p ∈ s.parameters, ∀ q ∈ s.parameters, p.key = q.key → p.same q = true := by
    decide +kernel
  exact ⟨consistent, render_rebind s g .default consistent, by decide +kernel⟩

/-- Rendering does not depend on the identities of parameters without name, but on which of them are
equal, and not at all on those of parameters with a name: text, values and reports stay as they are when
different identities stay different, so that two buildings of one statement, each with identities of its
own, are rendered alike. -/
theorem render_renameIdentities (s : Statement) (ρ : Nat → Nat) (σ : Parameter → Nat) (settings : RenderSettings)
    (injective : ∀ i ∈ identities s.parameters, ∀ j ∈ identities s.parameters, ρ i = ρ j → i = j) :
    (s.renameIdentities ρ σ).render settings = s.render settings ∧
    ∀ (ρ' : Nat → Nat) (σ' : Parameter → Nat),
      (∀ i ∈ identities s.parameters, ∀ j ∈ identities s.parameters, ρ' i = ρ' j → i = j) →
        (s.renameIdentities ρ' σ').render settings = (s.renameIdentities ρ σ).render settings := by
  have hrender := fun (ρ : Nat → Nat) (σ : Parameter → Nat)
      (injective : ∀ i ∈ identities s.parameters, ∀ j ∈ identities s.parameters, ρ i = ρ j → i = j) =>
    render_mapParameters (corresponds_rename ρ σ injective) (fun _ _ => rfl) settings
  exact ⟨hrender ρ σ injective,
    fun ρ' σ' injective' => (hrender ρ' σ' injective').trans (hrender ρ σ injective).symm⟩

/-- Two parameters whose identities change places, with values in conflict, and two of one name, which get the
identities that the others had. -/
theorem render_renameIdentities_swapped :
    let who : Identifier := ⟨"who", by decide +kernel⟩
    let p : Parameter := .anonymous 0 (.bool true)
    let q : Parameter := .anonymous 1 (.bool false)
    let s : Statement := .single ⟨[.returning (.new false [.parameter p, .parameter ⟨2, some who, none⟩,
      .parameter q, .parameter ⟨3, some who, none⟩, .parameter (p.withValue (.string "other"))])]⟩
    let swap : Nat → Nat := fun i => 1 - i
    let named : Parameter → Nat := fun p => p.id - 2
    (∀ i ∈ identities s.parameters, ∀ j ∈ identities s.parameters, swap i = swap j → i = j) ∧
    (s.renameIdentities swap named).render .default = s.render .default ∧
    (s.render .default).value.text = "RETURN $__p0, $who, $__p1, $who, $__p0" ∧
    (s.render .default).records.map Record.level = [.trace, .trace, .warn] := by
  intro who p q s swap named
  have injective : ∀ i ∈ identities s.parameters, ∀ j ∈ identities s.parameters, swap i = swap j → i = j := by
    decide +kernel
  exact ⟨injective, (render_renameIdentities s swap named .default injective).1, by decide +kernel,
    by decide +kernel⟩

end Statement
end GraphQuery
