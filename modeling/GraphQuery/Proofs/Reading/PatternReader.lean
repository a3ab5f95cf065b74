import GraphQuery.Proofs.Decimal.Reading
import GraphQuery.Proofs.Reading.Reader
import GraphQuery.Proofs.Render.Clause

/-! A reader of written patterns. It goes through the tokens once and keeps the elements that are
complete, the element at which it stands, and what it has read of a node or between brackets. An arrow
is complete only when the symbols on both sides of the brackets are read. -/
namespace GraphQuery

/-- One more relationship behind a chain. -/
def Chain.extend (c : Chain) (d : RelationshipDetail) (n : Node) : Chain :=
  ⟨c.relationships, ⟨c.last.right, d, n⟩, c.linked.concat rfl⟩

/-- The chain of an element and one more relationship behind it. -/
def PatternElement.extend (e : PatternElement) (d : RelationshipDetail) (n : Node) : PatternElement :=
  match e with
  | .node m => .chain (.ofRelationship ⟨m, d, n⟩)
  | .relationship r => .chain ((Chain.ofRelationship r).extend d n)
  | .chain c => .chain (c.extend d n)

namespace PatternReading

open Reading (naturalOf?)
open Text (Token Reads isQuoting)

/-- An element and a relationship behind it that has no other end yet. -/
abbrev Open := PatternElement × RelationshipDetail

inductive Phase where
  | element
  | node (before : Option Open) (name : List Char) (labels : List Label)
  | behind (element : PatternElement)
  | comma
  | arrow (element : PatternElement)
  | line (element : PatternElement) (left : Bool)
  | bracket (element : PatternElement) (left : Bool) (name : List Char) (types : List String)
    (length : Option (List Char))
  | closing (element : PatternElement) (detail : RelationshipDetail)
  | tail (element : PatternElement) (detail : RelationshipDetail)

structure Reader where
  elements : List PatternElement
  phase : Phase

def nameOf? (cs : List Char) : Option (Option Identifier) :=
  if cs = [] then some none else (Identifier.ofString? (String.ofList cs)).map some

/-- A node in its place: on its own, or at the other end of a relationship. -/
def placed : Option Open → Node → PatternElement
  | none, n => .node n
  | some (e, d), n => e.extend d n

def boundOf? (cs : List Char) : Option (Option UInt32) :=
  if cs = [] then some none
  else (naturalOf? cs).bind fun n => if n < UInt32.size then some (some (.ofNat n)) else none

/-- The bounds behind an asterisk. -/
def rangeOf? (cs : List Char) : Option LengthRange :=
  if cs = [] then some .unbounded
  else
    match cs.dropWhile Char.isDigit with
    | '.' :: '.' :: behind =>
      (boundOf? (cs.takeWhile Char.isDigit)).bind fun a => (boundOf? behind).map fun b => ⟨a, b⟩
    | _ => none

def lengthOf? : Option (List Char) → Option (Option LengthRange)
  | none => some none
  | some cs => (rangeOf? cs).map some

/-- What stands between brackets, behind an arrow to the left or behind a line. -/
def detailOf? (left : Bool) (name : List Char) (types : List String) (length : Option (List Char)) :
    Option RelationshipDetail :=
  (nameOf? name).bind fun name => (lengthOf? length).map fun length =>
    ⟨if left then .rightToLeft else .undirected, name, types, length, none⟩

namespace Reader

def start : Reader := ⟨[], .element⟩

def character (c : Char) : Reader → Option Reader
  | ⟨es, .element⟩ => if c = '(' then some ⟨es, .node none [] []⟩ else none
  | ⟨es, .node before name labels⟩ =>
    if c = ')' then (nameOf? name).map fun name => ⟨es, .behind (placed before ⟨name, labels, none⟩)⟩
    else some ⟨es, .node before (if c = ':' then name else name ++ [c]) labels⟩
  | ⟨es, .behind e⟩ =>
    if c = ',' then some ⟨es ++ [e], .comma⟩
    else if c = '<' then some ⟨es, .arrow e⟩
    else if c = '-' then some ⟨es, .line e false⟩
    else none
  | ⟨es, .comma⟩ => if c = ' ' then some ⟨es, .element⟩ else none
  | ⟨es, .arrow e⟩ => if c = '-' then some ⟨es, .line e true⟩ else none
  | ⟨es, .line e left⟩ => if c = '[' then some ⟨es, .bracket e left [] [] none⟩ else none
  | ⟨es, .bracket e left name types length⟩ =>
    if c = ']' then (detailOf? left name types length).map fun d => ⟨es, .closing e d⟩
    else if c = '*' then some ⟨es, .bracket e left name types (some [])⟩
    else if c = ':' ∨ c = '|' then some ⟨es, .bracket e left name types length⟩
    else
      match length with
      | none => some ⟨es, .bracket e left (name ++ [c]) types none⟩
      | some cs => some ⟨es, .bracket e left name types (some (cs ++ [c]))⟩
  | ⟨es, .closing e d⟩ => if c = '-' then some ⟨es, .tail e d⟩ else none
  | ⟨es, .tail e d⟩ =>
    if c = '(' then some ⟨es, .node (some (e, d)) [] []⟩
    else if c = '>' ∧ d.direction = .undirected then some ⟨es, .tail e { d with direction := .leftToRight }⟩
    else none

/-- A quoted name is a label or a type. -/
def quoted (s : String) : Reader → Option Reader
  | ⟨es, .node before name labels⟩ =>
    if h : s = "" then none else some ⟨es, .node before name (labels ++ [⟨s, h⟩])⟩
  | ⟨es, .bracket e left name types length⟩ => some ⟨es, .bracket e left name (types ++ [s]) length⟩
  | _ => none

def step (r : Reader) : Token → Option Reader
  | .character c => r.character c
  | .name s => r.quoted s
  | .string _ => none

def run (r : Reader) (ts : List Token) : Option Reader := ts.foldlM step r

/-- The elements, if the text ends here. -/
def finish : Reader → Option (List PatternElement)
  | ⟨es, .behind e⟩ => some (es ++ [e])
  | _ => none

@[simp] theorem run_nil (r : Reader) : r.run [] = some r := rfl

@[simp] theorem run_cons (r : Reader) (t : Token) (ts : List Token) :
    r.run (t :: ts) = (r.step t).bind fun s => s.run ts := rfl

theorem run_append (r : Reader) (ts us : List Token) :
    r.run (ts ++ us) = (r.run ts).bind fun s => s.run us := List.foldlM_append

end Reader

/-- The elements that a text is read as. -/
def read (t : String) : Option (List PatternElement) :=
  (Text.scan t).bind fun ts => (Reader.start.run ts).bind Reader.finish

/-- The text leads the reader from one state to another. -/
def Leads (t : String) (r s : Reader) : Prop := ∃ ts, Reads t ts ∧ r.run ts = some s

namespace Leads

variable {t u : String} {r s v : Reader}

theorem empty (r : Reader) : Leads "" r r := ⟨[], .of_plain (t := "") (by decide), rfl⟩

theorem append (ht : Leads t r s) (hu : Leads u s v) : Leads (t ++ u) r v := by
  obtain ⟨ts, hread, hrun⟩ := ht
  obtain ⟨us, hread', hrun'⟩ := hu
  exact ⟨ts ++ us, hread.append hread', by rw [Reader.run_append, hrun, Option.bind_some, hrun']⟩

/-- A character outside of all quotes. -/
theorem mark {c : Char} (hc : isQuoting c = false) (h : r.character c = some s) :
    Leads (String.singleton c) r s := by
  refine ⟨[.character c], .character hc, ?_⟩
  rw [Reader.run_cons, Reader.step, h]
  rfl

/-- A quoted name behind a character. -/
theorem quotedName {c : Char} (hc : isQuoting c = false) (h : r.character c = some s) {contents : String}
    (hs : s.quoted contents = some v) : Leads (String.singleton c ++ Text.quotedName contents) r v := by
  refine ⟨_, .quotedName hc contents, ?_⟩
  rw [Reader.run_cons, Reader.step, h, Option.bind_some, Reader.run_cons, Reader.step, hs]
  rfl

/-- Quoted names in a row, each behind the same character. -/
theorem quotedNames {α : Type} {c : Char} {g : α → String} {f : List α → Reader} (hc : isQuoting c = false)
    (hmark : ∀ read, (f read).character c = some (f read))
    (hname : ∀ read a, (f read).quoted (g a) = some (f (read ++ [a]))) (read as : List α) :
    Leads (String.join (as.map fun a => String.singleton c ++ Text.quotedName (g a))) (f read)
      (f (read ++ as)) := by
  induction as generalizing read with
  | nil =>
    rw [List.append_nil]
    exact .empty _
  | cons a as ih =>
    have hrest := (quotedName hc (hmark read) (hname read a)).append (ih (read ++ [a]))
    rw [List.append_assoc, List.singleton_append] at hrest
    rw [List.map_cons, String.join_cons]
    exact hrest

/-- Text that is read character by character. -/
theorem characters {f : List Char → Reader} (hplain : ∀ c ∈ t.toList, isQuoting c = false)
    (hstep : ∀ read, ∀ c ∈ t.toList, (f read).character c = some (f (read ++ [c]))) :
    Leads t (f []) (f t.toList) := by
  have hrun : ∀ cs : List Char, (∀ read, ∀ c ∈ cs, (f read).character c = some (f (read ++ [c]))) →
      ∀ read, (f read).run (cs.map .character) = some (f (read ++ cs)) := by
    intro cs
    induction cs with
    | nil => intro _ read; simp
    | cons c cs ih =>
      intro hcs read
      rw [List.map_cons, Reader.run_cons, Reader.step, hcs read c List.mem_cons_self, Option.bind_some,
        ih (fun read d hd => hcs read d (List.mem_cons_of_mem c hd)), List.append_assoc, List.singleton_append]
  exact ⟨_, .of_plain hplain, hrun _ hstep []⟩

theorem finish (h : Leads t .start s) : read t = s.finish := by
  obtain ⟨ts, hread, hrun⟩ := h
  rw [read, hread.scan, Option.bind_some, hrun, Option.bind_some]

end Leads

section Names

/-- The characters that mean something to the reader within a node or between brackets. -/
def marks : List Char := [')', ':', ']', '*', '|']

theorem not_mark {p : Char → Bool} (hp : marks.any p = false) {c : Char} (h : p c = true) : c ∉ marks :=
  fun hc => List.any_eq_false.mp hp c hc h

theorem isNamePart_not_mark {c : Char} (h : Text.isNamePart c = true) : c ∉ marks :=
  not_mark (p := Text.isNamePart) (by decide +kernel) h

theorem isNumeral_not_mark {c : Char} (h : Text.isNumeral c = true) : c ∉ marks :=
  not_mark (p := Text.isNumeral) (by decide) h

/-- A name in writing, of which nothing is left where there is none. -/
def nameText (n : Option Identifier) : String := (n.map Identifier.text).getD ""

theorem isNamePart_nameText {n : Option Identifier} {c : Char} (h : c ∈ (nameText n).toList) :
    Text.isNamePart c = true := by
  cases n with
  | none => exact absurd h (by simp [nameText])
  | some n => exact Text.isNamePart_of_mem n.valid h

theorem nameOf?_text (n : Option Identifier) : nameOf? (nameText n).toList = some n := by
  cases n with
  | none => rfl
  | some n =>
    have hne : n.text.toList ≠ [] := fun hn =>
      (Reading.isWord_identifier n).1 (String.toList_eq_nil_iff.mp hn)
    simp [nameText, nameOf?, hne, String.ofList_toList]

end Names

section Ranges

theorem isDigit_boundText (b : Option UInt32) : ∀ c ∈ (RelationshipDetail.boundText b).toList, c.isDigit = true := by
  cases b with
  | none => exact fun c hc => absurd hc (by simp [RelationshipDetail.boundText])
  | some n =>
    rw [RelationshipDetail.boundText, Text.toList_toString]
    exact fun c hc => Decimal.isDigit_of_mem_toDigits hc

theorem boundOf?_text (b : Option UInt32) : boundOf? (RelationshipDetail.boundText b).toList = some b := by
  cases b with
  | none => rfl
  | some n =>
    rw [RelationshipDetail.boundText, Text.toList_toString, boundOf?, if_neg Nat.toDigits_ne_nil,
      Reading.naturalOf?_toDigits, Option.bind_some, if_pos n.toNat_lt_size, UInt32.ofNat_toNat]

/-- The bounds of a length, of which there are none behind a mere asterisk. -/
def rangeText (r : LengthRange) : String :=
  if r.isUnbounded then "" else RelationshipDetail.boundText r.minimum ++ ".." ++ RelationshipDetail.boundText r.maximum

theorem lengthText_some (r : LengthRange) : RelationshipDetail.lengthText (some r) = "*" ++ rangeText r := by
  obtain ⟨_ | a, _ | b⟩ := r
  · rfl
  all_goals simp [RelationshipDetail.lengthText, rangeText, LengthRange.isUnbounded, String.append_assoc]

theorem isNumeral_rangeText {r : LengthRange} {c : Char} (h : c ∈ (rangeText r).toList) :
    Text.isNumeral c = true := by
  unfold rangeText at h
  split at h
  · exact absurd h (by simp)
  · rw [String.toList_append, String.toList_append, List.mem_append, List.mem_append] at h
    obtain (h | h) | h := h
    · exact Text.isNumeral_of_isDigit (isDigit_boundText r.minimum c h)
    · obtain rfl : c = '.' := by simpa using h
      decide
    · exact Text.isNumeral_of_isDigit (isDigit_boundText r.maximum c h)

theorem rangeOf?_text (r : LengthRange) : rangeOf? (rangeText r).toList = some r := by
  by_cases hr : r.isUnbounded = true
  · obtain ⟨_ | a, _ | b⟩ := r
    · rfl
    all_goals exact absurd hr (by simp [LengthRange.isUnbounded])
  · have hlist : (rangeText r).toList = (RelationshipDetail.boundText r.minimum).toList ++
        '.' :: '.' :: (RelationshipDetail.boundText r.maximum).toList := by
      simp [rangeText, hr]
    have hdigits := isDigit_boundText r.minimum
    have hdot : ('.' : Char).isDigit = false := by decide
    rw [rangeOf?, hlist, if_neg (by simp), List.dropWhile_append_of_pos hdigits, List.takeWhile_append_of_pos hdigits]
    simp [hdot, boundOf?_text]

end Ranges

end PatternReading
end GraphQuery
