import GraphQuery.Proofs.Builder.Unions
import GraphQuery.Proofs.Render.Statement

/-! The parts of a union. A query is written behind other parts as it is on its own, as long as they
have named none of its nodes and written none of its aliased expressions. -/
namespace GraphQuery

def Construct.nodeName? : Construct → Option Identifier
  | .node name => name
  | _ => none

def Construct.alias? : Construct → Option (Expression × Identifier)
  | .aliased e name => some (e, name)
  | _ => none

namespace SyntaxTree

/-- The names of the nodes in a tree. -/
def nodeNames (t : SyntaxTree) : List Identifier := t.constructs.filterMap Construct.nodeName?

/-- The aliased expressions in a tree. -/
def aliases (t : SyntaxTree) : List (Expression × Identifier) := t.constructs.filterMap Construct.alias?

end SyntaxTree

/-- The same expression under the same alias. -/
def sameAlias (a b : Expression × Identifier) : Bool := a.1.same b.1 && a.2 == b.2

/-- A construct that names none of some nodes, is none of some aliased expressions and no parameter
without name. -/
structure Construct.IsClear (nodes : List Identifier) (aliases : List (Expression × Identifier))
    (c : Construct) : Prop where
  node : ∀ n ∈ c.nodeName?, n ∉ nodes
  aliased : ∀ b ∈ c.alias?, ∀ a ∈ aliases, sameAlias a b = false
  parameter : ∀ p ∈ c.parameter?, p.isAnonymous = false

namespace Render.Writer

/-- The first writer has written the same text as the second one, and before that some nodes and some
aliased expressions that the second one has not. -/
structure Exceeds (nodes : List Identifier) (aliases : List (Expression × Identifier)) (w v : Writer) :
    Prop where
  text : w.text = v.text
  counters : w.counters = v.counters
  skipping : w.skipping = v.skipping
  nodes : w.nodes = v.nodes ++ nodes
  aliases : w.aliases = aliases ++ v.aliases
  table : ∃ stem reserved, w.table.IsAssigned stem reserved
  table' : ∃ stem reserved, v.table.IsAssigned stem reserved

namespace Exceeds

variable {nodes : List Identifier} {aliases : List (Expression × Identifier)} {w v : Writer}
  {c : Construct}

theorem write (h : Exceeds nodes aliases w v) (t : String) : Exceeds nodes aliases (w.write t) (v.write t) :=
  { h with text := congrArg (· ++ t) h.text }

theorem separate (h : Exceeds nodes aliases w v) (ancestors : List Place) :
    Exceeds nodes aliases (w.separate ancestors) (v.separate ancestors) := by
  unfold Writer.separate
  rw [h.counters]
  split
  · split
    · exact h
    · exact { h.write _ with counters := rfl }
  · exact h

theorem mem_nodes (h : Exceeds nodes aliases w v) {n : Identifier} (hn : n ∉ nodes) :
    n ∈ w.nodes ↔ n ∈ v.nodes := by
  simp [h.nodes, hn]

theorem isAliasWritten (h : Exceeds nodes aliases w v) {e : Expression} {name : Identifier}
    (ha : ∀ a ∈ aliases, sameAlias a (e, name) = false) :
    w.isAliasWritten e name = v.isAliasWritten e name := by
  have hnone : (aliases.any fun a => a.1.same e && a.2 == name) = false :=
    List.any_eq_false.mpr fun a ha' => Bool.eq_false_iff.mp (ha a ha')
  rw [Writer.isAliasWritten, h.aliases, List.any_append, hnone, Bool.false_or]
  rfl

theorem register (h : Exceeds nodes aliases w v) {p : Parameter} (hp : p.isAnonymous = false) :
    (w.table.register p).value.1 = (v.table.register p).value.1 := by
  obtain ⟨stem, reserved, ps, hw⟩ := h.table
  obtain ⟨stem', reserved', ps', hv⟩ := h.table'
  rw [(hw.register p).2, (hv.register p).2]
  cases hk : p.key with
  | named n => rfl
  | anonymous id => exact absurd (Parameter.isAnonymous_of_anonymous hk) (by simp [hp])

theorem openingText (h : Exceeds nodes aliases w v) (hc : c.IsClear nodes aliases) (ancestors : List Place) :
    Writer.openingText c ancestors w = Writer.openingText c ancestors v := by
  cases c with
  | unionPart all => rw [Writer.openingText, Writer.openingText, endsWithSpace, endsWithSpace, h.text]
  | node name =>
    cases name with
    | none => rfl
    | some n => simp only [Writer.openingText, h.mem_nodes (hc.node n rfl)]
  | parameter p => simp only [Writer.openingText, h.register (hc.parameter p rfl)]
  | _ => rfl

theorem note (h : Exceeds nodes aliases w v) (hc : c.IsClear nodes aliases) :
    Exceeds nodes aliases (w.note c) (v.note c) := by
  cases c with
  | node name =>
    cases name with
    | none => exact h
    | some n =>
      simp only [Writer.note, h.mem_nodes (hc.node n rfl)]
      split
      · exact { h with skipping := rfl }
      · exact { h with skipping := rfl, nodes := congrArg (n :: ·) h.nodes }
  | parameter p =>
    obtain ⟨stem, reserved, hw⟩ := h.table
    obtain ⟨stem', reserved', hv⟩ := h.table'
    exact { h with table := ⟨stem, reserved, hw.register p⟩, table' := ⟨stem', reserved', hv.register p⟩ }
  | aliased e name =>
    refine { h with aliases := ?_ }
    change w.aliases ++ [(e, name)] = aliases ++ (v.aliases ++ [(e, name)])
    rw [h.aliases, List.append_assoc]
  | _ =>
    rw [note_eq rfl, note_eq rfl]
    split
    · exact { h with counters := congrArg (0 :: ·) h.counters }
    · exact h

theorem settle (h : Exceeds nodes aliases w v) (c : Construct) :
    Exceeds nodes aliases (w.settle c) (v.settle c) := by
  cases c with
  | node name => exact { h with skipping := rfl }
  | _ =>
    simp only [Writer.settle]
    split
    · exact { h with counters := congrArg List.tail h.counters }
    · exact h

end Exceeds

/-- Clear constructs are written alike by both writers. -/
theorem relates_exceeds (nodes : List Identifier) (aliases : List (Expression × Identifier)) :
    visitor.Relates (Construct.IsClear nodes aliases) (Exceeds nodes aliases) where
  accept p ancestors w v hc h := by
    change (Writer.accept p ancestors w).1 = (Writer.accept p ancestors v).1 ∧
      Exceeds nodes aliases (Writer.accept p ancestors w).2 (Writer.accept p ancestors v).2
    have hsep := h.separate ancestors
    cases hv : v.skipping with
    | true =>
      have hw : w.skipping = true := h.skipping.trans hv
      simp only [Writer.accept, hw, hv, if_true]
      exact ⟨trivial, h⟩
    | false =>
      rw [accept_eq (h.skipping.trans hv), accept_eq hv]
      split
      · next e name he =>
        rw [he] at hc
        rw [hsep.isAliasWritten (hc.aliased (e, name) rfl)]
        split
        · exact ⟨rfl, hsep.write _⟩
        · exact ⟨rfl, hsep⟩
      · exact ⟨rfl, hsep⟩
  enter p ancestors w v hc h := by
    change Exceeds nodes aliases ((w.write _).note _) ((v.write _).note _)
    rw [h.openingText hc]
    exact (h.write _).note hc
  leave p ancestors w v h := (h.write _).settle _
  afterLeave p ancestors w v h := h

theorem printed_accept (p : Place) (ancestors : List Place) (w : Writer) :
    (accept p ancestors w).2.printed = w.printed := by
  unfold accept
  split
  · rfl
  · dsimp only
    split
    · split <;> simp
    · simp

/-- A walk adds no node names and no aliased expressions but those of its tree. -/
theorem preserves_written (nodes : List Identifier) (aliases : List (Expression × Identifier)) :
    visitor.Preserves (fun c => (∀ n ∈ c.nodeName?, n ∈ nodes) ∧ ∀ a ∈ c.alias?, a ∈ aliases)
      (fun w => (∀ n ∈ w.nodes, n ∈ nodes) ∧ ∀ a ∈ w.aliases, a ∈ aliases) where
  accept p ancestors w h := by
    have hnodes : (visitor.accept p ancestors w).2.nodes = w.nodes :=
      congrArg Printed.nodes (printed_accept p ancestors w)
    have haliases : (visitor.accept p ancestors w).2.aliases = w.aliases :=
      congrArg Printed.aliases (printed_accept p ancestors w)
    rwa [hnodes, haliases]
  enter p ancestors w hc h := by
    change (∀ n ∈ (Writer.note _ (w.write _)).nodes, _) ∧ ∀ a ∈ (Writer.note _ (w.write _)).aliases, _
    generalize p.tree.construct = c at hc
    cases c with
    | node name =>
      cases name with
      | none => exact h
      | some n =>
        simp only [Writer.note]
        split
        · exact h
        · exact ⟨List.forall_mem_cons.mpr ⟨hc.1 n rfl, h.1⟩, h.2⟩
    | aliased e name =>
      exact ⟨h.1, List.forall_mem_append.mpr ⟨h.2, List.forall_mem_singleton.mpr (hc.2 (e, name) rfl)⟩⟩
    | parameter p => exact h
    | _ =>
      rw [note_eq rfl]
      split <;> exact h
  leave p ancestors w hc h := by
    change (∀ n ∈ (Writer.settle _ (w.write _)).nodes, _) ∧ ∀ a ∈ (Writer.settle _ (w.write _)).aliases, _
    unfold Writer.settle
    split
    · exact h
    · split <;> exact h
  afterLeave p ancestors w h := h

end Render.Writer

/-- What is printed so far does not show in a tree: the tree names none of the nodes, has none of the
aliased expressions, and no parameter without name. -/
def Printed.IsClear (s : Printed) (t : SyntaxTree) : Prop :=
  ∀ c ∈ t.constructs, c.IsClear s.nodes s.aliases

/-- A table in which nothing is registered yet. -/
theorem ParameterTable.IsAssigned.start (stem : String) (reserved : List String) :
    (new (.new stem) reserved).IsAssigned stem reserved := ⟨[], .start _ _⟩

namespace Query

open Render.Writer
open Printing (run_bind run_pure)

variable {q : Query} {stem stem' : String} {reserved reserved' : List String}

/-- A query prints the same text wherever nothing printed before shows in it. -/
theorem WellFormed.text_print_eq (hq : q.WellFormed) {s : Printed} (hs : s.IsClear q.tree)
    (ht : s.table.IsAssigned stem reserved) {table : ParameterTable} (ht' : table.IsAssigned stem' reserved') :
    (q.print.run s).1 = (q.print.run ⟨[], [], table⟩).1 := by
  -- One writer has printed what comes before, the other one is new; both walk through the same tree.
  let w : Render.Writer := ⟨"", s.table, s.nodes, s.aliases, false, [], []⟩
  let v : Render.Writer := ⟨"", table, [], [], false, [], []⟩
  have hexceeds : Exceeds s.nodes s.aliases w v :=
    ⟨rfl, rfl, rfl, rfl, (List.append_nil _).symm, ⟨_, _, ht⟩, ⟨_, _, ht'⟩⟩
  have hwalk := (relates_exceeds s.nodes s.aliases).walk [] q.tree [] hs hexceeds
  have hw := (writes_query q [] [] w rfl rfl).text
  have hv := (writes_query q [] [] v rfl rfl).text
  rw [separate_of_not_isSeparated _ rfl, hq.run_printSpaced] at hw hv
  have htext := hwalk.text
  rw [hw, hv, ← String.append_assoc, ← String.append_assoc, String.append_left_inj] at htext
  exact (String.append_right_inj "").mp htext

/-- What is printed after a query is what was printed before it, its nodes and its aliased expressions. -/
theorem WellFormed.written_print (hq : q.WellFormed) (s : Printed) :
    (∀ n ∈ (q.print.run s).2.nodes, n ∈ s.nodes ++ q.tree.nodeNames) ∧
      ∀ a ∈ (q.print.run s).2.aliases, a ∈ s.aliases ++ q.tree.aliases := by
  let w : Render.Writer := ⟨"", s.table, s.nodes, s.aliases, false, [], []⟩
  have hwalk := (preserves_written (s.nodes ++ q.tree.nodeNames) (s.aliases ++ q.tree.aliases)).walk [] q.tree
    [] w (fun c hc => ⟨fun n hn => ?_, fun a ha => ?_⟩)
    ⟨fun n hn => List.mem_append_left _ hn, fun a ha => List.mem_append_left _ ha⟩
  · have hprinted := (writes_query q [] [] w rfl rfl).printed
    rw [separate_of_not_isSeparated _ rfl, hq.run_printSpaced] at hprinted
    have hnodes := congrArg Printed.nodes hprinted
    have haliases := congrArg Printed.aliases hprinted
    exact ⟨hnodes ▸ hwalk.1, haliases ▸ hwalk.2⟩
  · exact List.mem_append_right _ (List.mem_filterMap.mpr ⟨c, hc, hn⟩)
  · exact List.mem_append_right _ (List.mem_filterMap.mpr ⟨c, hc, ha⟩)

/-- A query leaves a tree clear that has other nodes and other aliased expressions. -/
theorem WellFormed.isClear_print (hq : q.WellFormed) {s : Printed} {t : SyntaxTree} (hs : s.IsClear t)
    (hnodes : ∀ n ∈ q.tree.nodeNames, n ∉ t.nodeNames)
    (haliases : ∀ a ∈ q.tree.aliases, ∀ b ∈ t.aliases, sameAlias a b = false) :
    (q.print.run s).2.IsClear t := by
  obtain ⟨hn, ha⟩ := hq.written_print s
  intro c hc
  refine ⟨fun n hcn hmem => ?_, fun b hcb a hmem => ?_, (hs c hc).parameter⟩
  · rcases List.mem_append.mp (hn n hmem) with h | h
    · exact (hs c hc).node n hcn h
    · exact hnodes n h (List.mem_filterMap.mpr ⟨c, hc, hcn⟩)
  · rcases List.mem_append.mp (ha a hmem) with h | h
    · exact (hs c hc).aliased b hcb a h
    · exact haliases a h b (List.mem_filterMap.mpr ⟨c, hc, hcb⟩)

/-- Queries that are clear of each other print, one behind the other, what each prints alone. -/
theorem texts_print {parts : List Query} (hq : ∀ q ∈ parts, q.WellFormed) {s : Printed}
    (hs : ∀ q ∈ parts, s.IsClear q.tree)
    (hnodes : parts.Pairwise fun q r => ∀ n ∈ q.tree.nodeNames, n ∉ r.tree.nodeNames)
    (haliases : parts.Pairwise fun q r =>
      ∀ a ∈ q.tree.aliases, ∀ b ∈ r.tree.aliases, sameAlias a b = false)
    (ht : s.table.IsAssigned stem reserved) (stem' : String) :
    ((parts.mapM Query.print).run s).1 = parts.map fun q => (Statement.single q).printed stem' := by
  induction parts generalizing s with
  | nil => rfl
  | cons q parts ih =>
    obtain ⟨hwf, hwfs⟩ := List.forall_mem_cons.mp hq
    obtain ⟨hclear, hclears⟩ := List.forall_mem_cons.mp hs
    obtain ⟨hnode, hnodes⟩ := List.pairwise_cons.mp hnodes
    obtain ⟨halias, haliases⟩ := List.pairwise_cons.mp haliases
    have htable := (writes_query q).keeps (fun _ p h => h.register p) ht
    rw [hwf.run_printSpaced] at htable
    have hrest := ih hwfs (fun r hr => hwf.isClear_print (hclears r hr) (hnode r hr) (halias r hr)) hnodes
      haliases htable
    have hfirst := hwf.text_print_eq hclear ht
      (ParameterTable.IsAssigned.start stem' (Statement.single q).parameterNames)
    rw [List.mapM_cons, List.map_cons]
    simp only [run_bind, run_pure, hrest]
    rw [hfirst]
    rfl

end Query

namespace Statement

open Render.Writer
open Printing (run_bind run_pure)

theorem text_render_single {q : Query} (hq : q.WellFormed) (hk : q.tree.KeysTight) (settings : RenderSettings) :
    ((single q).render settings).value.text = (single q).printed settings.stem := by
  obtain ⟨hspaced, -⟩ := walk_query hq hk [0] [⟨[], .branch .statement [q.tree]⟩] (w := (single q).initial
    settings.stem) rfl rfl rfl (.start _ _)
  rw [initial_text, String.empty_append] at hspaced
  rw [text_render, tree, walk_statement _ _ rfl]
  exact hspaced.trimmed (hq.beginsTight_print _)

/-- Parts of a union that share no node name and no aliased expression are written as they are alone,
with the keyword between them. -/
theorem text_render_union {all : Bool} {queries : List Query} (two : 2 ≤ queries.length)
    (built : ∀ q ∈ queries, (single q).Built) (hk : ∀ q ∈ queries, q.tree.KeysTight)
    (hparameters : ∀ q ∈ queries, ∀ p ∈ q.tree.parameters, p.isAnonymous = false)
    (hnodes : queries.Pairwise fun q r => ∀ n ∈ q.tree.nodeNames, n ∉ r.tree.nodeNames)
    (haliases : queries.Pairwise fun q r =>
      ∀ a ∈ q.tree.aliases, ∀ b ∈ r.tree.aliases, sameAlias a b = false)
    (settings : RenderSettings) :
    ∃ s, unionOf all (queries.map single) = .ok s ∧ (s.render settings).value.text =
      (if all then " UNION ALL " else " UNION ").intercalate
        (queries.map fun q => ((single q).render settings).value.text) := by
  have hq : ∀ q ∈ queries, q.WellFormed := fun q hq => (built q hq).wellFormed
  refine ⟨.union all queries, unionOf_single two, ?_⟩
  have htexts : (queries.map fun q => ((single q).render settings).value.text) =
      queries.map fun q => (single q).printed settings.stem :=
    List.map_congr_left fun q hmem => text_render_single (hq q hmem) (hk q hmem) settings
  have hclear : ∀ table, ∀ q ∈ queries, (Printed.mk [] [] table).IsClear q.tree := fun table q hmem c hc =>
    ⟨fun n _ => List.not_mem_nil, fun b _ a ha => absurd ha List.not_mem_nil, fun p hp =>
      hparameters q hmem p (List.mem_filterMap.mpr ⟨c, hc, hp⟩)⟩
  have hprinted := Query.texts_print hq (hclear _) hnodes haliases
    (.start settings.stem (union all queries).parameterNames) settings.stem
  rw [htexts, ← hprinted]
  obtain ⟨q, rest, rfl⟩ := List.exists_cons_of_length_pos (Nat.zero_lt_of_lt two)
  obtain ⟨hwf, hwfs⟩ := List.forall_mem_cons.mp hq
  obtain ⟨hkey, hkeys⟩ := List.forall_mem_cons.mp hk
  obtain ⟨hspaced, hstate⟩ := walk_query hwf hkey [0] [⟨[], (union all (q :: rest)).tree⟩]
    (w := (union all (q :: rest)).initial settings.stem) rfl rfl rfl (.start _ _)
  have hrest := hspaced.walkAll_parts all hwfs hkeys [] 1 [⟨[], (union all (q :: rest)).tree⟩] rfl
  rw [hstate, initial_text, String.empty_append] at hrest
  rw [text_render, tree, walk_statement _ _ rfl]
  simp only [run_bind, run_pure, List.mapM_cons, Text.intercalate_cons]
  exact hrest.trimmed ((hwf.beginsTight_print _).append _)

/-- Two parts with a column of the same name, but of nodes of their own. -/
theorem text_render_union_nodes :
    let column (n : Identifier) : Expression :=
      .aliased (.property (.variable n) "name") ⟨"title", by decide +kernel⟩
    let part (n : Identifier) : Query :=
      ⟨[.matching ⟨false, ⟨[.node ⟨some n, [], none⟩]⟩, none⟩, .returning (.new false [column n])]⟩
    ∃ s, unionOf true
        [single (part ⟨"p", by decide +kernel⟩), single (part ⟨"q", by decide +kernel⟩)] = .ok s ∧
      s.text = "MATCH (p) RETURN p.name AS title UNION ALL MATCH (q) RETURN q.name AS title" := by
  intro column part
  have built (n : Identifier) : (single (part n)).Built := @Built.run
    [.opening (.matching false [.node ⟨some n, [], none⟩]), .opening (.returning false [column n])]
    ⟨single (part n), _⟩ rfl
  obtain ⟨s, hs, htext⟩ := @text_render_union true
    [part ⟨"p", by decide +kernel⟩, part ⟨"q", by decide +kernel⟩] (by decide) (by simp [built])
    (by decide) (by decide) (by decide +kernel) (by decide +kernel) .default
  refine ⟨s, hs, htext.trans ?_⟩
  decide +kernel

/-- Two parts without a node in common that return the same column. In the union the second one returns
only the alias, which it writes in full when it stands alone. -/
theorem text_render_union_column :
    let p : Identifier := ⟨"p", by decide +kernel⟩
    let column : Expression := .aliased (.property (.variable p) "name") ⟨"title", by decide +kernel⟩
    let first : Query :=
      ⟨[.matching ⟨false, ⟨[.node ⟨some p, [], none⟩]⟩, none⟩, .returning (.new false [column])]⟩
    let second : Query := ⟨[.unwinding (.literal .null) p, .returning (.new false [column])]⟩
    (∀ q ∈ [first, second], (single q).Built ∧ q.tree.KeysTight ∧ q.tree.parameters = []) ∧
      (∀ n ∈ first.tree.nodeNames, n ∉ second.tree.nodeNames) ∧
      (single first).text = "MATCH (p) RETURN p.name AS title" ∧
      (single second).text = "UNWIND NULL AS p RETURN p.name AS title" ∧
      ∃ s, unionOf false [single first, single second] = .ok s ∧
        s.text = "MATCH (p) RETURN p.name AS title UNION UNWIND NULL AS p RETURN title" ∧
        s.text ≠ " UNION ".intercalate [(single first).text, (single second).text] := by
  intro p column first second
  have hfirst : (single first).Built := @Built.run
    [.opening (.matching false [.node ⟨some p, [], none⟩]), .opening (.returning false [column])]
    ⟨single first, _⟩ rfl
  have hsecond : (single second).Built := @Built.run
    [.opening (.unwind (.literal .null)), .refinement (.as "p"), .opening (.returning false [column])]
    ⟨single second, _⟩ rfl
  have hparts : ∀ q ∈ [first, second], (single q).Built ∧ q.tree.KeysTight ∧ q.tree.parameters = [] :=
    List.forall_mem_cons.mpr ⟨⟨hfirst, by decide, by decide⟩,
      List.forall_mem_singleton.mpr ⟨hsecond, by decide, by decide⟩⟩
  refine ⟨hparts, by decide, by decide +kernel, by decide +kernel, .union false [first, second], rfl, ?_, ?_⟩
  · decide +kernel
  · decide +kernel

end Statement
end GraphQuery
