import GraphQuery.Proofs.Builder.Statement
import GraphQuery.Proofs.Render.Ends
import GraphQuery.Proofs.Render.Names
import GraphQuery.Render

/-! Rendering is printing. The trees of the clauses of a query are written with a space behind each,
which stands between two clauses or in front of the next union keyword, and trimming takes away
what the last clause leaves. -/
namespace GraphQuery

open Printing (run_pure run_bind)
open Render.Writer
open Text (EndsTight BeginsTight)

variable {stem : String} {reserved : List String}

namespace Query

/-- What stands behind the last clause. -/
def trailing (q : Query) : String := (q.clauses.getLast?.map Clause.trailing).getD ""

theorem trailing_eq (q : Query) : q.trailing = "" ∨ q.trailing = " " := by
  unfold trailing
  cases q.clauses.getLast? with
  | none => exact .inl rfl
  | some c => cases c <;> first | exact .inl rfl | exact .inr rfl

/-- Clauses with their spaces are clauses with a space between them. -/
theorem run_mapM_printSpaced {cs : List Clause} (hcs : ∀ d ∈ cs, d.isReturning = false) (c : Clause)
    (s : Printed) :
    String.join (((cs ++ [c]).mapM Clause.printSpaced).run s).1 =
        " ".intercalate (((cs ++ [c]).mapM Clause.print).run s).1 ++ c.trailing ∧
      (((cs ++ [c]).mapM Clause.printSpaced).run s).2 = (((cs ++ [c]).mapM Clause.print).run s).2 := by
  induction cs generalizing s with
  | nil =>
    simp only [List.nil_append, List.mapM_cons, List.mapM_nil, run_bind, run_pure, Clause.printSpaced,
      String.join_cons, String.join_nil, String.append_empty, String.intercalate_singleton, and_self]
  | cons d cs ih =>
    have hd : d.trailing = " " := by
      have := hcs d List.mem_cons_self
      cases d <;> first | rfl | exact absurd this Bool.noConfusion
    obtain ⟨htext, hstate⟩ := ih (fun e he => hcs e (List.mem_cons_of_mem d he)) (d.print.run s).2
    have hne : (((cs ++ [c]).mapM Clause.print).run (d.print.run s).2).1 ≠ [] :=
      Printing.mapM_ne_nil _ _ (by simp)
    rw [List.cons_append, List.mapM_cons, List.mapM_cons]
    simp only [run_bind, run_pure, Clause.printSpaced] at htext hstate ⊢
    rw [String.join_cons, htext, hd, String.intercalate_cons_of_ne_nil hne]
    exact ⟨by simp only [String.append_assoc], hstate⟩

theorem WellFormed.run_printSpaced {q : Query} (hq : q.WellFormed) (s : Printed) :
    q.printSpaced.run s = ((q.print.run s).1 ++ q.trailing, (q.print.run s).2) := by
  obtain ⟨cs, c, hsplit, hcs, -⟩ := hq.split
  obtain ⟨htext, hstate⟩ := run_mapM_printSpaced (fun d hd => (hcs d hd).2) c s
  have htrailing : q.trailing = c.trailing := by simp [trailing, hsplit]
  rw [htrailing]
  simp only [Query.print, Query.printSpaced, run_bind, run_pure, hsplit]
  rw [htext, hstate]

theorem WellFormed.endsTight_print {q : Query} (hq : q.WellFormed) (hk : q.tree.KeysTight) {s : Printed}
    (hs : s.table.IsAssigned stem reserved) : EndsTight (q.print.run s).1 := by
  simp only [Query.print, run_bind, run_pure]
  refine .intercalate (Printing.mapM_ne_nil _ _ hq.nonempty) ?_
  refine (Printing.forall_mapM (I := fun s => s.table.IsAssigned stem reserved) _ (fun c hc s hs => ?_) hs).1
  have hkeeps := (writes_clause c).keeps (fun _ p h => h.register p) hs
  simp only [Clause.printSpaced, run_bind, run_pure] at hkeeps
  exact ⟨Clause.endsTight_print hs (hq.clauses c hc) (hk.child (List.mem_map_of_mem hc)), hkeeps⟩

theorem WellFormed.beginsTight_print {q : Query} (hq : q.WellFormed) (s : Printed) :
    BeginsTight (q.print.run s).1 := by
  obtain ⟨c, cs, hcs⟩ := List.exists_cons_of_ne_nil hq.nonempty
  simp only [Query.print, run_bind, run_pure, hcs, List.mapM_cons]
  exact .intercalate (c.beginsTight_print s) _

end Query

/-- The writer has written a text, and behind it at most one space. -/
structure Render.Writer.Spaced (stem : String) (reserved : List String) (w : Writer) (t : String) : Prop where
  text : w.text = t ∨ w.text = t ++ " "
  tight : EndsTight t
  skipping : w.skipping = false
  assigned : w.table.IsAssigned stem reserved

namespace Render.Writer

/-- A query is written behind whatever stands before it. -/
theorem walk_query {q : Query} (hq : q.WellFormed) (hk : q.tree.KeysTight) (path : List Nat)
    (ancestors : List Place) {w : Writer} (hsep : isSeparated ancestors = false)
    (henc : enclosing? ancestors = none) (hw : w.skipping = false) (hs : w.table.IsAssigned stem reserved) :
    Spaced stem reserved (visitor.walk path q.tree ancestors w) (w.text ++ (q.print.run w.printed).1) ∧
      (visitor.walk path q.tree ancestors w).printed = (q.print.run w.printed).2 := by
  have h := writes_query q path ancestors w henc hw
  rw [separate_of_not_isSeparated w hsep] at h
  have htext := h.text
  have hprinted := h.printed
  rw [hq.run_printSpaced, ← String.append_assoc] at htext
  rw [hq.run_printSpaced] at hprinted
  have htight := hq.endsTight_print hk (s := w.printed) hs
  refine ⟨⟨?_, .append _ htight, h.skipping, ?_⟩, hprinted⟩
  · rw [htext]
    obtain ht | ht := q.trailing_eq
    · exact .inl (by rw [ht, String.append_empty])
    · exact .inr (by rw [ht])
  · exact (preserves_table fun _ p h => h.register p).walk path q.tree ancestors w (fun _ _ => trivial) hs

/-- The keyword between two parts of a union. -/
def unionText (all : Bool) : String := if all then " UNION ALL " else " UNION "

/-- A space stands before the keyword in any case, and never two of them. -/
theorem Spaced.text_union {w : Writer} {t : String} (h : Spaced stem reserved w t) (all : Bool)
    (ancestors : List Place) : w.text ++ openingText (.unionPart all) ancestors w = t ++ unionText all := by
  have hkeyword : unionText all = " " ++ ("UNION " ++ if all then "ALL " else "") := by
    cases all <;> decide
  obtain ht | ht := h.text
  · have hend : w.endsWithSpace = false := by
      obtain ⟨c, hc, hb⟩ := h.tight
      have hne : c ≠ ' ' := fun he => absurd hb (he ▸ by decide)
      rw [Option.mem_def] at hc
      simp [endsWithSpace, ht, hc, hne]
    simp only [openingText, hend, ht, hkeyword, Bool.false_eq_true, if_false, String.append_assoc]
  · have hend : w.endsWithSpace = true := by
      simp [endsWithSpace, ht]
    simp only [openingText, hend, ht, hkeyword, if_true, String.append_assoc, String.empty_append]

/-- The parts of a union behind the first one. -/
theorem Spaced.walkAll_parts (all : Bool) {parts : List Query} (hq : ∀ q ∈ parts, q.WellFormed)
    (hk : ∀ q ∈ parts, q.tree.KeysTight) (path : List Nat) (index : Nat) (ancestors : List Place)
    (hsep : isSeparated ancestors = false) {w : Writer} {t : String} (h : Spaced stem reserved w t) :
    Spaced stem reserved
      (visitor.walkAll path index (parts.map fun q => .branch (.unionPart all) [q.tree]) ancestors w)
      (t ++ String.join (((parts.mapM Query.print).run w.printed).1.map fun u => unionText all ++ u)) := by
  induction parts generalizing index w t with
  | nil =>
    simp only [List.mapM_nil, run_pure, List.map_nil, String.join_nil, String.append_empty]
    exact h
  | cons q parts ih =>
    let place : Place := ⟨index :: path, .branch (.unionPart all) [q.tree]⟩
    let v : Writer := w.write (openingText (.unionPart all) ancestors w)
    have hv : v.text = t ++ unionText all := h.text_union all ancestors
    obtain ⟨hspaced, hprinted⟩ := walk_query (hq q List.mem_cons_self) (hk q List.mem_cons_self)
      (0 :: index :: path) (place :: ancestors) (w := v) rfl rfl h.skipping h.assigned
    have hwalk : visitor.walk (index :: path) (.branch (.unionPart all) [q.tree]) ancestors w =
        visitor.walk (0 :: index :: path) q.tree (place :: ancestors) v := by
      rw [walk_branch h.skipping (by simp), separate_of_not_isSeparated w hsep]
      exact write_empty _
    rw [List.map_cons, Visitor.walkAll_cons, hwalk, List.mapM_cons]
    have hrest := ih (fun q hq' => hq q (List.mem_cons_of_mem _ hq'))
      (fun q hq' => hk q (List.mem_cons_of_mem _ hq'))
      (index + 1) hspaced
    rw [hprinted, hv, printed_write] at hrest
    simp only [run_bind, run_pure, List.map_cons, String.join_cons]
    simpa only [String.append_assoc] using hrest

/-- Trimming takes the space away. -/
theorem Spaced.trimmed {w : Writer} {t : String} (h : Spaced stem reserved w t) (ht : BeginsTight t) :
    Text.trimmed w.text = t := by
  obtain htext | htext := h.text
  · have htrim := Text.trimmed_append (t := "") ht h.tight fun c hc => absurd hc (by simp)
    rw [htext]
    rwa [String.append_empty] at htrim
  · rw [htext]
    exact Text.trimmed_append ht h.tight (List.all_eq_true.mp (by decide))

end Render.Writer

namespace Statement

/-- The state in which a statement begins. -/
def initial (s : Statement) (stem : String) : Render.Writer := .new (.new (.new stem) s.parameterNames)

theorem initial_text (s : Statement) (stem : String) : (s.initial stem).text = "" := rfl

theorem text_render (s : Statement) (settings : RenderSettings) : (s.render settings).value.text =
    Text.trimmed (visitor.walk [] s.tree [] (s.initial settings.stem)).text := by
  rw [render, Render.ofTree, Render.state_namesIn, Traversal.ofTree_eq_walk]
  rfl

/-- The trees of a statement are written one behind the other. -/
theorem walk_statement (ts : List SyntaxTree) (w : Render.Writer) (hw : w.skipping = false) :
    visitor.walk [] (.branch .statement ts) [] w =
      visitor.walkAll [] 0 ts [⟨[], .branch .statement ts⟩] w := by
  rw [walk_branch hw (by simp), separate_of_not_isSeparated w rfl]
  have henter : enter ⟨[], .branch .statement ts⟩ [] w = w := write_empty w
  rw [henter]
  exact write_empty _

/-- The text of a statement is its printed text: as long as no property key ends in a blank, what
the visitor writes step by step is what recursion on the statement prints. -/
theorem text_render_eq_printed {s : Statement} (built : s.Built) (hk : s.tree.KeysTight)
    (settings : RenderSettings) : (s.render settings).value.text = s.printed settings.stem := by
  have hw := built.wellFormed
  have hassigned : (s.initial settings.stem).table.IsAssigned settings.stem s.parameterNames :=
    ⟨[], .start _ _⟩
  rw [text_render]
  match s with
  | .single q =>
    obtain ⟨hspaced, -⟩ := walk_query hw (hk.child List.mem_cons_self) [0]
      [⟨[], .branch .statement [q.tree]⟩] rfl rfl rfl hassigned
    rw [initial_text, String.empty_append] at hspaced
    rw [tree, walk_statement _ _ rfl]
    exact hspaced.trimmed (hw.beginsTight_print _)
  | .union all [] => exact absurd hw.1 (by simp)
  | .union all (q :: rest) =>
    have hq := hw.2 q List.mem_cons_self
    obtain ⟨hspaced, hprinted⟩ := walk_query hq (hk.child List.mem_cons_self) [0]
      [⟨[], (Statement.union all (q :: rest)).tree⟩] rfl rfl rfl hassigned
    have hrest := hspaced.walkAll_parts all (fun p hp => hw.2 p (List.mem_cons_of_mem q hp))
      (fun p hp => (hk.child (List.mem_cons_of_mem _ (List.mem_map_of_mem hp))).child List.mem_cons_self)
      [] 1 [⟨[], (Statement.union all (q :: rest)).tree⟩] rfl
    rw [hprinted, initial_text, String.empty_append] at hrest
    rw [printed, print, tree, walk_statement _ _ rfl]
    simp only [run_bind, run_pure, List.mapM_cons, Text.intercalate_cons]
    exact hrest.trimmed ((hq.beginsTight_print _).append _)

/-- The second part of a union writes a node and a column of the first part only by their names. -/
theorem text_render_eq_printed_union :
    let n : Identifier := ⟨"n", by decide +kernel⟩
    let person : Node := ⟨some n, [⟨"Person", by decide⟩], none⟩
    let column : Expression := .aliased (.property (.variable n) "name") ⟨"name", by decide +kernel⟩
    let q : Query := ⟨[.matching ⟨false, ⟨[.node person]⟩, none⟩, .returning (.new false [column])]⟩
    let s : Statement := .union true [q, q]
    s.Built ∧ s.tree.KeysTight ∧ (s.render .default).value.text = s.printed NameSource.defaultStem ∧
      s.printed NameSource.defaultStem =
        "MATCH (n:\x60Person\x60) RETURN n.name AS name UNION ALL MATCH (n) RETURN name" := by
  intro n person column q s
  have hq : Built (.single q) := @Built.run
    [.opening (.matching false [.node person]), .opening (.returning false [column])] ⟨.single q, _⟩ rfl
  have hs : s.Built := @Built.union true [.single q, .single q] s (by simp [hq]) rfl
  have hk : s.tree.KeysTight := by decide
  exact ⟨hs, hk, text_render_eq_printed hs hk .default, by decide +kernel⟩

end Statement

end GraphQuery
