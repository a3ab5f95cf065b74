import GraphQuery.Proofs.Toml.Values
import Mathlib.Data.List.Nodup

/-! Documents of sections read back from their text. A section is a header and lines with a key and a value each; if
no section and no key in a section is named twice, the table of the document has the sections in their order, and in
each of them its settings. -/
namespace GraphQuery.Toml

/-- Names that stand without quotes. -/
def Bare (name : String) : Prop := name.toList ≠ [] ∧ name.toList.all Parser.isBare = true

instance (name : String) : Decidable (Bare name) := inferInstanceAs (Decidable (_ ∧ _))

/-- A key with the text of its value, and what that stands for. -/
structure Setting where
  key : String
  text : List Char
  value : Toml
  bare : Bare key
  denotes : Parser.Denotes text value

structure Section where
  name : String
  settings : List Setting
  bare : Bare name
  distinct : (settings.map Setting.key).Nodup

def Setting.line (s : Setting) : List Char := s.key.toList ++ ' ' :: '=' :: ' ' :: (s.text ++ ['\n'])

def Setting.item (s : Setting) : String × Item := (s.key, .value s.value)

def Setting.entry (s : Setting) : String × Toml := (s.key, s.value)

/-- An empty line, the header and the settings. -/
def Section.lines (s : Section) : List Char :=
  '\n' :: '[' :: (s.name.toList ++ ']' :: '\n' :: s.settings.flatMap Setting.line)

def Section.item (s : Section) : String × Item := (s.name, .table .header (s.settings.map Setting.item))

def Section.entry (s : Section) : String × Toml := (s.name, .table (s.settings.map Setting.entry))

theorem Section.nodup_entries (s : Section) : ((s.settings.map Setting.entry).map Prod.fst).Nodup := by
  rw [List.map_map]
  exact s.distinct

def document (ss : List Section) : List Char := ss.flatMap Section.lines

section Items

variable {key : String} {es : Entries}

theorem alter_fresh (f : Option Item → Option Item) (h : key ∉ es.map Prod.fst) :
    es.alter key f = (f none).map fun item => es ++ [(key, item)] := by
  induction es with
  | nil => rfl
  | cons e es ih =>
    obtain ⟨k, item⟩ := e
    simp only [List.map_cons, List.mem_cons, not_or] at h
    rw [Entries.alter, if_neg (Ne.symm h.1), ih h.2]
    cases f none <;> rfl

theorem alter_last (f : Option Item → Option Item) (h : key ∉ es.map Prod.fst) (item : Item) :
    Entries.alter key f (es ++ [(key, item)]) = (f (some item)).map fun item => es ++ [(key, item)] := by
  induction es with
  | nil => exact if_pos rfl
  | cons e es ih =>
    obtain ⟨k, i⟩ := e
    simp only [List.map_cons, List.mem_cons, not_or] at h
    rw [List.cons_append, Entries.alter, if_neg (Ne.symm h.1), ih h.2]
    cases f (some item) <;> rfl

/-- An item with a key of its own goes behind the items before it. -/
theorem fresh_of_nodup {keys : List String} (e : String × Item) (h : (es.map Prod.fst ++ e.1 :: keys).Nodup) :
    e.1 ∉ es.map Prod.fst ∧ ((es ++ [e]).map Prod.fst ++ keys).Nodup := by
  constructor
  · intro hmem
    exact (List.nodup_cons.mp (List.nodup_middle.mp h)).1 (List.mem_append_left _ hmem)
  · rw [List.append_cons] at h
    rwa [List.map_append]

theorem openTable_fresh (h : key ∉ es.map Prod.fst) : es.openTable [] key = some (es ++ [(key, .table .header [])]) :=
  alter_fresh _ h

/-- A line below the last header puts its value behind those that stand there. -/
theorem insert_last {name : String} {inner : Entries} (hname : name ∉ es.map Prod.fst)
    (hkey : key ∉ inner.map Prod.fst) (v : Toml) :
    Entries.modifyAt false (fun origin es => es.insert [] key v origin) [name] .header
      (es ++ [(name, .table .header inner)]) = some (es ++ [(name, .table .header (inner ++ [(key, .value v)]))]) := by
  have hinsert : inner.insert [] key v .header = some (inner ++ [(key, .value v)]) := alter_fresh _ hkey
  rw [Entries.modifyAt, alter_last _ hname]
  simp [Entries.modifyAt, hinsert]

end Items

namespace Parser

variable {fuel : Nat} {path : List String} {es : Entries} {cs : List Char}

theorem exists_bare {name : String} (h : Bare name) : ∃ c tail, name.toList = c :: tail ∧ isBare c = true := by
  obtain ⟨c, tail, htext⟩ := List.exists_cons_of_ne_nil h.1
  exact ⟨c, tail, htext, List.all_eq_true.mp h.2 c (htext ▸ List.mem_cons_self)⟩

theorem ne_of_isBare {c d : Char} (hc : isBare c = true) (hd : isBare d = false) : c ≠ d := by
  rintro rfl
  exact absurd (hc.symm.trans hd) (by decide)

/-- A name is read up to the first character that stands in none. -/
theorem key?_bare {name : String} (h : Bare name) {d : Char} (hd : isBare d = false)
    (hdot : ∀ tail, skipSpaces (d :: cs) ≠ '.' :: tail) :
    key? (name.toList ++ d :: cs) = some (([], name), skipSpaces (d :: cs)) := by
  obtain ⟨c, tail, htext, hc⟩ := exists_bare h
  obtain ⟨htake, hdrop⟩ := Decimal.takeWhile_dropWhile_append_cons (List.all_eq_true.mp h.2) hd cs
  have hquote : ∀ q, isBare q = false → ∀ rest, name.toList ++ d :: cs ≠ q :: rest := by
    intro q hq rest heq
    rw [htext, List.cons_append, List.cons.injEq] at heq
    exact ne_of_isBare hc hq heq.1
  have hsimple : simpleKey? (name.toList ++ d :: cs) = some (name, d :: cs) := by
    rw [simpleKey?.eq_3 _ (hquote '"' (by decide)) (hquote '\x27' (by decide)), htake, hdrop,
      if_neg (by simp [h.1]), String.ofList_toList]
  rw [key?, depthLimit, keyParts?, hsimple]
  simp only [Option.bind_eq_bind, Option.bind_some]
  rfl

theorem skipTrivia_cons {c : Char} (hspace : isSpace c = false) (hc : c ≠ '#' ∧ c ≠ '\n' ∧ c ≠ '\r') :
    skipTrivia (c :: cs) = some (c :: cs) := by
  have hskip : skipSpaces (c :: cs) = c :: cs := List.dropWhile_cons_of_neg (by simp [hspace])
  have hline : newline? (c :: cs) = none := by simp [newline?, hc]
  rw [skipTrivia, skipTriviaWithin, hskip]
  split
  · next heq => exact absurd (List.cons.inj heq).1 hc.1
  · next heq => rw [hline]

theorem isSpace_of_isBare {c : Char} (hc : isBare c = true) : isSpace c = false := by
  rw [isSpace, Bool.or_eq_false_iff]
  exact ⟨beq_false_of_ne (ne_of_isBare hc (by decide)), beq_false_of_ne (ne_of_isBare hc (by decide))⟩

theorem skipTrivia_bare {c : Char} (hc : isBare c = true) : skipTrivia (c :: cs) = some (c :: cs) :=
  skipTrivia_cons (isSpace_of_isBare hc)
    ⟨ne_of_isBare hc (by decide), ne_of_isBare hc (by decide), ne_of_isBare hc (by decide)⟩

theorem lines?_newline (fuel : Nat) (path : List String) (es : Entries) (cs : List Char) :
    lines? fuel path es ('\n' :: cs) = lines? fuel path es cs := by
  cases fuel with
  | zero => rfl
  | succ fuel =>
    have htrivia : skipTrivia ('\n' :: cs) = skipTrivia cs := rfl
    rw [lines?, htrivia, lines?]

theorem lines?_header {name : String} (h : Bare name) :
    lines? (fuel + 1) path es ('[' :: (name.toList ++ ']' :: '\n' :: cs)) =
      (es.openTable [] name).bind fun es => lines? fuel [name] es cs := by
  obtain ⟨c, tail, htext, hc⟩ := exists_bare h
  have hbracket : c ≠ '[' := ne_of_isBare hc (by decide)
  have hskip : skipSpaces (name.toList ++ ']' :: '\n' :: cs) = name.toList ++ ']' :: '\n' :: cs := by
    rw [htext]
    exact List.dropWhile_cons_of_neg (by simp [isSpace_of_isBare hc])
  have hkey : key? (name.toList ++ ']' :: '\n' :: cs) = some (([], name), ']' :: '\n' :: cs) :=
    key?_bare h (by decide) nofun
  rw [lines?, skipTrivia_cons (by decide) (by decide)]
  simp only [Option.bind_eq_bind, Option.bind_some]
  -- A second bracket would make it the header of an array, but no name begins with one.
  split
  · next heq => cases heq
  · next heq =>
    rw [htext, List.cons.injEq, List.cons_append, List.cons.injEq] at heq
    exact absurd heq.2.1 hbracket
  · next heq =>
    cases heq
    rw [hskip, hkey]
    rfl
  · next hother => exact absurd rfl (hother _)

theorem lines?_setting (s : Setting) : lines? (fuel + 1) path es (s.line ++ cs) =
    (Entries.modifyAt false (fun origin es => es.insert [] s.key s.value origin) path .header es).bind
      fun es => lines? fuel path es cs := by
  obtain ⟨c, tail, htext, hc⟩ := exists_bare s.bare
  have hbracket : c ≠ '[' := ne_of_isBare hc (by decide)
  have hline : s.line ++ cs = s.key.toList ++ ' ' :: '=' :: ' ' :: (s.text ++ '\n' :: cs) := by
    simp [Setting.line]
  have hkey : key? (s.line ++ cs) = some (([], s.key), '=' :: ' ' :: (s.text ++ '\n' :: cs)) :=
    hline ▸ key?_bare s.bare (by decide) nofun
  have htrivia : skipTrivia (s.line ++ cs) = some (s.line ++ cs) := by
    rw [hline, htext]
    exact skipTrivia_bare hc
  have hhead : ∀ rest, s.line ++ cs ≠ '[' :: rest := by
    intro rest heq
    rw [hline, htext, List.cons_append, List.cons.injEq] at heq
    exact hbracket heq.1
  have hnil : s.line ++ cs ≠ [] := by simp [hline]
  rw [lines?, htrivia]
  simp only [Option.bind_eq_bind, Option.bind_some]
  split
  · next heq => exact absurd heq hnil
  · next heq => exact absurd heq (hhead _)
  · next heq => exact absurd heq (hhead _)
  · rw [hkey]
    simp only [Option.bind_some]
    rw [s.denotes]
    simp only [Option.bind_some]
    rfl

/-- The settings of the last section are read one by one, each behind those before it. -/
theorem lines?_settings {name : String} {inner : Entries} {settings : List Setting} (hname : name ∉ es.map Prod.fst)
    (hkeys : (inner.map Prod.fst ++ settings.map Setting.key).Nodup) :
    lines? (fuel + settings.length) [name] (es ++ [(name, .table .header inner)])
        (settings.flatMap Setting.line ++ cs) =
      lines? fuel [name] (es ++ [(name, .table .header (inner ++ settings.map Setting.item))]) cs := by
  induction settings generalizing inner with
  | nil => rw [List.map_nil, List.append_nil]; rfl
  | cons s settings ih =>
    have ⟨(hkey : s.key ∉ inner.map Prod.fst), hrest⟩ := fresh_of_nodup s.item hkeys
    rw [List.flatMap_cons, List.append_assoc, List.length_cons, ← Nat.add_assoc, lines?_setting,
      insert_last hname hkey, Option.bind_some]
    exact (ih hrest).trans (by rw [List.append_assoc]; rfl)

theorem lines?_section {s : Section} (hname : s.name ∉ es.map Prod.fst) :
    lines? (fuel + s.settings.length + 1) path es (s.lines ++ cs) = lines? fuel [s.name] (es ++ [s.item]) cs := by
  have hlines : s.lines ++ cs =
      '\n' :: '[' :: (s.name.toList ++ ']' :: '\n' :: (s.settings.flatMap Setting.line ++ cs)) := by
    simp [Section.lines]
  rw [hlines, lines?_newline, lines?_header s.bare, openTable_fresh hname, Option.bind_some]
  exact lines?_settings hname s.distinct

theorem lines?_document {ss : List Section} (h : (es.map Prod.fst ++ ss.map Section.name).Nodup)
    (hfuel : (ss.map fun s => s.settings.length + 1).sum < fuel) :
    lines? fuel path es (document ss) = some (es ++ ss.map Section.item) := by
  induction ss generalizing fuel path es with
  | nil =>
    obtain ⟨fuel, rfl⟩ := Nat.exists_eq_succ_of_ne_zero (Nat.ne_of_gt (Nat.zero_lt_of_lt hfuel))
    rw [List.map_nil, List.append_nil]
    rfl
  | cons s ss ih =>
    have ⟨(hname : s.name ∉ es.map Prod.fst), hrest⟩ := fresh_of_nodup s.item h
    rw [List.map_cons, List.sum_cons] at hfuel
    obtain ⟨k, rfl⟩ : ∃ k, fuel = k + s.settings.length + 1 := ⟨fuel - s.settings.length - 1, by omega⟩
    rw [document, List.flatMap_cons, lines?_section hname]
    exact (ih hrest (by omega)).trans (by rw [List.append_assoc]; rfl)

end Parser

theorem finishEntries_settings (settings : List Setting) :
    finishEntries (settings.map Setting.item) = settings.map Setting.entry := by
  induction settings with
  | nil => rfl
  | cons s settings ih =>
    rw [List.map_cons, List.map_cons, ← ih]
    rfl

theorem finishEntries_sections (ss : List Section) : finishEntries (ss.map Section.item) = ss.map Section.entry := by
  induction ss with
  | nil => rfl
  | cons s ss ih =>
    rw [List.map_cons, List.map_cons, ← ih, Section.entry, ← finishEntries_settings]
    rfl

theorem length_le_flatMap_line (settings : List Setting) :
    settings.length ≤ (settings.flatMap Setting.line).length := by
  induction settings with
  | nil => exact Nat.le_refl _
  | cons s settings ih =>
    simp only [List.flatMap_cons, Setting.line, List.length_append, List.length_cons]
    omega

/-- Every section and every setting has a line of its own. -/
theorem size_le_length (ss : List Section) :
    (ss.map fun s => s.settings.length + 1).sum + ss.length ≤ (document ss).length := by
  induction ss with
  | nil => exact Nat.le_refl _
  | cons s ss ih =>
    have hle := length_le_flatMap_line s.settings
    rw [document] at ih ⊢
    simp only [List.map_cons, List.sum_cons, List.flatMap_cons, Section.lines, List.length_append, List.length_cons]
    omega

/-- The table of a document has the sections that were written. -/
theorem parse?_document {text : String} {ss : List Section} (htext : '\n' :: text.toList = document ss)
    (h : (ss.map Section.name).Nodup) : parse? text = some (ss.map Section.entry) := by
  cases ss with
  | nil => cases htext
  | cons s ss =>
    have hmark : ∀ rest, text.toList ≠ '\ufeff' :: rest := by
      intro rest heq
      rw [heq] at htext
      cases htext
    have hsize := size_le_length (s :: ss)
    rw [← htext, List.length_cons, List.length_cons] at hsize
    -- The empty line that the text lacks in front is none to the reader.
    have hlines : Parser.lines? (text.toList.length + 1) [] [] text.toList = some ((s :: ss).map Section.item) := by
      rw [← Parser.lines?_newline, htext]
      exact Parser.lines?_document h (by omega)
    rw [parse?]
    split
    · next heq => exact absurd heq (hmark _)
    · rw [hlines, Option.map_some, finishEntries_sections]

end GraphQuery.Toml
