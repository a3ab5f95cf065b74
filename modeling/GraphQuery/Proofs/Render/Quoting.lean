import GraphQuery.Proofs.Render.Parameters
import GraphQuery.Proofs.Text.Scanner

/-! What is quoted in the text of a statement. Labels, relationship types and strings are written in
quotes; the keys, functions and names that are not are identifiers, and so no character of a name or
a string is read outside of its quotes. -/
namespace GraphQuery

open Text (Plain Quotes Token)

namespace Literal

mutual

/-- The strings in a literal, those in its items included. -/
def strings : Literal → List String
  | .string s => [s]
  | .list items => stringsOfAll items
  | .null | .boolean _ | .integer _ | .float _ => []

def stringsOfAll : List Literal → List String
  | [] => []
  | l :: rest => strings l ++ stringsOfAll rest

end

@[simp] theorem stringsOfAll_eq_flatMap (ls : List Literal) : stringsOfAll ls = ls.flatMap strings := by
  induction ls with
  | nil => rfl
  | cons l ls ih => simp [stringsOfAll, ih]

mutual

theorem quotes_text (l : Literal) : Quotes l.text (l.strings.map .string) := by
  match l with
  | .null => exact .of_plain (by decide)
  | .boolean b => exact .of_plain (.ite (by decide) (by decide))
  | .integer n => exact .of_plain (Text.plain_toString_int _)
  | .float x => exact .of_plain (Text.plain_floatText x)
  | .string s => exact .quotedString s
  | .list items =>
    have hitems := Quotes.intercalate ", " (by decide) (quotes_texts items)
    rw [text, strings, texts_eq_map, stringsOfAll_eq_flatMap, List.map_flatMap]
    simpa using ((Quotes.of_plain (t := "[") (by decide)).append hitems).append
      (.of_plain (t := "]") (by decide))

theorem quotes_texts (ls : List Literal) : ∀ l ∈ ls, Quotes l.text (l.strings.map .string) := by
  match ls with
  | [] => simp
  | l :: rest => exact List.forall_mem_cons.mpr ⟨quotes_text l, quotes_texts rest⟩

end

end Literal

namespace Construct

/-- What a construct writes in quotes of its own. -/
def quoted : Construct → List Token
  | .nodeLabel l => [.name l.text]
  | .relationshipTypes ts => ts.map .name
  | .literal l => l.strings.map .string
  | _ => []

/-- The name that a construct writes without quotes and that need not be an identifier. -/
def bareName? : Construct → Option String
  | .propertyLookup key | .mapEntry key => some key
  | .function name => some name
  | _ => none

end Construct

namespace SyntaxTree

def bareNames (t : SyntaxTree) : List String := t.constructs.filterMap Construct.bareName?

end SyntaxTree

theorem SortDirection.plain_symbol (d : SortDirection) : Plain d.symbol := by
  cases d <;> decide

theorem Direction.plain_left (d : Direction) : Plain d.left := by
  cases d <;> decide

theorem Direction.plain_right (d : Direction) : Plain d.right := by
  cases d <;> decide

theorem Operator.plain_text (op : Operator) : Plain op.text := by
  rcases op with op | op | op <;> cases op <;> decide

theorem ParameterTable.IsAssigned.plain {stem : String} {reserved : List String} {t : ParameterTable}
    (hstem : Text.isIdentifier stem = true) (h : t.IsAssigned stem reserved) (p : Parameter) :
    Plain (t.register p).value.1 := by
  obtain ⟨ps, hps⟩ := h
  rw [(hps.register p).2]
  cases p.key with
  | named n => exact Text.plain_identifier n
  | anonymous id => exact (Text.plain_of_isIdentifier hstem).append (Text.plain_toString _)

namespace Render.Writer

theorem plain_boundText (bound : Option UInt32) : Plain (boundText bound) := by
  cases bound with
  | none => decide
  | some n => exact Text.plain_toString _

theorem plain_lengthText (r : LengthRange) : Plain (lengthText r) := by
  refine .ite (by decide) (.append (.append (.append ?_ ?_) ?_) ?_)
  · decide
  · exact plain_boundText _
  · decide
  · exact plain_boundText _

theorem quotes_typesText (ts : List String) : Quotes (typesText ts) (ts.map .name) := by
  cases ts with
  | nil => exact .of_plain (t := "") (by decide)
  | cons t ts =>
    have hrest : Quotes (String.join (ts.map fun t => "|" ++ Text.quotedName t))
        (ts.flatMap fun t => [.name t]) := .join fun t _ => .quotedName '|' (by decide) t
    rw [← List.map_eq_flatMap] at hrest
    exact (Quotes.quotedName ':' (by decide) t).append hrest

section Callbacks

variable {stem : String} {reserved : List String} (c : Construct) (ancestors : List Place) (w : Writer)

/-- Behind a construct nothing is written in quotes. -/
theorem plain_closingText (hc : ∀ name ∈ c.bareName?, Text.isIdentifier name = true) :
    Plain (closingText c ancestors) := by
  cases c with
  | unwinding name => exact .append (.append (by decide) (Text.plain_identifier name)) (by decide)
  | relationshipDetail d => exact .append (by decide) d.plain_right
  | propertyLookup key => exact .append (by decide) (Text.plain_of_isIdentifier (hc key rfl))
  | operation op => exact .ite (by decide) (by decide)
  | aliased e name => exact .append (by decide) (Text.plain_identifier name)
  | comparison op => exact .ite (by decide) (by decide)
  | _ =>
    dsimp only [closingText]
    decide

/-- In front of a construct its own names and strings are written in quotes, and all else without. -/
theorem quotes_openingText (hc : ∀ name ∈ c.bareName?, Text.isIdentifier name = true)
    (hstem : Text.isIdentifier stem = true) (ht : w.table.IsAssigned stem reserved) :
    Quotes (openingText c ancestors w) c.quoted := by
  cases c with
  | nodeLabel l => exact .quotedName ':' (by decide) l.text
  | relationshipTypes ts => exact quotes_typesText ts
  | literal l => exact l.quotes_text
  | unionPart all =>
    refine .of_plain (.append (.append (.ite (by decide) (by decide)) (by decide)) ?_)
    exact .ite (by decide) (by decide)
  | matching optional => exact .of_plain (.append (.ite (by decide) (by decide)) (by decide))
  | deleting detach => exact .of_plain (.append (.ite (by decide) (by decide)) (by decide))
  | passing distinct => exact .of_plain (.append (by decide) (.ite (by decide) (by decide)))
  | returning distinct => exact .of_plain (.append (by decide) (.ite (by decide) (by decide)))
  | sortDirection d => exact .of_plain (.append (by decide) d.plain_symbol)
  | skip n => exact .of_plain (.append (by decide) (Text.plain_toString _))
  | limit n => exact .of_plain (.append (by decide) (Text.plain_toString _))
  | node name =>
    cases name with
    | none => exact .of_plain (by decide : Plain "(")
    | some n => exact .of_plain (.append (by decide) (.ite (Text.plain_identifier n) (by decide)))
  | relationshipDetail d => exact .of_plain (.append d.plain_left (by decide))
  | relationshipLength r => exact .of_plain (plain_lengthText r)
  | symbolicName n => exact .of_plain (Text.plain_identifier n)
  | parameter p => exact .of_plain (.append (by decide) (ht.plain hstem p))
  | function f => exact .of_plain (.append (Text.plain_of_isIdentifier (hc f rfl)) (by decide))
  | operation op => exact .of_plain (.ite (by decide) (by decide))
  | operator op => exact .of_plain op.plain_text
  | mapEntry key => exact .of_plain (.append (Text.plain_of_isIdentifier (hc key rfl)) (by decide))
  | comparison op => exact .of_plain (.ite (by decide) (by decide))
  | _ =>
    refine .of_plain ?_
    dsimp only [openingText]
    decide

end Callbacks

end Render.Writer

namespace Chunk

def quoted (c : Chunk) : List Token := (c.source.map Construct.quoted).getD []

end Chunk

namespace Render.Recorder

open Writer

/-- What is quoted in the text is what the constructs that have been written have in quotes. -/
structure Quoting (stem : String) (reserved : List String) (r : Recorder) : Prop where
  table : r.writer.table.IsAssigned stem reserved
  quotes : Quotes r.writer.text (r.chunks.flatMap Chunk.quoted)

variable {stem : String} {reserved : List String}

theorem Quoting.record {r : Recorder} (h : r.Quoting stem reserved) {source : Option Construct} {w : Writer}
    {t : String} (htext : w.text = r.writer.text ++ t) (htable : w.table.IsAssigned stem reserved)
    (hquotes : Quotes t (Chunk.mk source t).quoted) : (r.record source w).Quoting stem reserved := by
  refine ⟨htable, ?_⟩
  rw [Recorder.record, List.flatMap_append, List.flatMap_singleton, htext]
  exact h.quotes.append hquotes

theorem preserves_quoting (hstem : Text.isIdentifier stem = true) :
    visitor.Preserves (fun c => ∀ name ∈ c.bareName?, Text.isIdentifier name = true)
      (Quoting stem reserved) where
  accept p ancestors r h := by
    obtain ⟨t, ht, hplain⟩ := text_accept r.writer p ancestors
    exact h.record ht (table_accept r.writer ▸ h.table) (.of_plain hplain)
  enter p ancestors r hc h := by
    refine h.record (text_enter r.writer p ancestors) ?_ (quotes_openingText _ _ _ hc hstem h.table)
    change (enter p ancestors r.writer).table.IsAssigned stem reserved
    rw [table_enter]
    split
    · exact h.table.register _
    · exact h.table
  leave p ancestors r hc h :=
    h.record (text_leave r.writer p ancestors) (table_leave r.writer p ancestors ▸ h.table)
      (.of_plain (plain_closingText _ _ hc))
  afterLeave _ _ _ h := h

end Render.Recorder

namespace Statement

variable (s : Statement)

/-- The names and the strings that are written in quotes, in the order of the text. -/
def quoted (stem : String) : List Token := (s.chunks stem).flatMap Chunk.quoted

/-- No label, relationship type or string ends its own quotes. As long as keys and functions are
identifiers, a scanner reads the text to its end without an open quote, what it reads in quotes is what
was written in quotes, and outside of these there is no quote, backtick or backslash. -/
theorem scan_text (settings : RenderSettings) (hstem : Text.isIdentifier settings.stem = true)
    (hnames : ∀ name ∈ s.tree.bareNames, Text.isIdentifier name = true) :
    (s.render settings).value.text = Text.trimmed (String.join ((s.chunks settings.stem).map Chunk.text)) ∧
    ∃ ts, Text.scan (s.render settings).value.text = some ts ∧
      ts.filter Token.isQuoted = s.quoted settings.stem ∧
      ∀ c, .character c ∈ ts → Text.isQuoting c = false := by
  have hquoting : (s.recorded settings.stem).Quoting settings.stem s.parameterNames := by
    refine (Render.Recorder.preserves_quoting hstem).walk [] s.tree [] _ (fun c hc name hname => ?_) ?_
    · exact hnames name (List.mem_filterMap.mpr ⟨c, hc, hname⟩)
    · exact ⟨⟨[], .start _ _⟩, .of_plain (t := "") (by decide)⟩
  have hscan := hquoting.quotes.scan_trimmed
  rw [(s.recorded_faithful settings.stem).text] at hscan
  refine ⟨s.text_eq_chunks settings, ?_⟩
  rw [text_eq_chunks]
  exact hscan

/-- A label and strings that try to end their quotes. -/
theorem scan_text_hostile :
    let m : Identifier := ⟨"m", by decide +kernel⟩
    let hostile : Node := ⟨some m, [⟨"A\x60) //", by decide⟩], some ⟨[⟨"key", .literal (.string "'\\")⟩]⟩⟩
    let items : Literal := .list [.list [.string "'\x7d"], .null]
    let s : Statement := .single ⟨[.matching ⟨false, ⟨[.node hostile]⟩, none⟩,
      .returning (.new false [.function "size" [.literal items], .property (.variable m) "key"])]⟩
    Text.isIdentifier RenderSettings.default.stem = true ∧
    (∀ name ∈ s.tree.bareNames, Text.isIdentifier name = true) ∧
    (∃ ts, Text.scan (s.render .default).value.text = some ts ∧
      ts.filter Token.isQuoted = s.quoted RenderSettings.default.stem ∧
      ∀ c, .character c ∈ ts → Text.isQuoting c = false) ∧
    s.quoted RenderSettings.default.stem = [.name "A\x60) //", .string "'\\", .string "'\x7d"] := by
  intro m hostile items s
  have hstem : Text.isIdentifier RenderSettings.default.stem = true := by decide +kernel
  have hnames : ∀ name ∈ s.tree.bareNames, Text.isIdentifier name = true := by decide +kernel
  exact ⟨hstem, hnames, (s.scan_text .default hstem hnames).2, by decide +kernel⟩

end Statement
end GraphQuery
