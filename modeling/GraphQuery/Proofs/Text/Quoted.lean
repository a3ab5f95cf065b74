import GraphQuery.Text.Quoted

/-! Quoted text read back. A reader of one quoted string or name goes from the opening quote to the one
that closes it. What it returns is what was quoted, and what stands behind the closing quote is left. -/
namespace GraphQuery.Text

/-- The text with another text in the place of every occurrence of a character. -/
def replaced (old : Char) (new s : String) : String :=
  String.ofList (s.toList.flatMap fun c => if c = old then new.toList else [c])

/-- A character in front of what a reader returns. -/
def readBehind (c : Char) (rest : Option (List Char × List Char)) : Option (List Char × List Char) :=
  rest.map fun read => (c :: read.1, read.2)

/-- A string from behind its opening quote on. A backslash takes the character behind it as it is. -/
def stringRest? : List Char → Option (List Char × List Char)
  | [] => none
  | c :: cs =>
    if c = '\x27' then some ([], cs)
    else if c = '\\' then
      match cs with
      | [] => none
      | d :: ds => readBehind d (stringRest? ds)
    else readBehind c (stringRest? cs)

/-- A name from behind its opening quote on. A doubled backtick is one backtick of the name. -/
def nameRest? : List Char → Option (List Char × List Char)
  | [] => none
  | c :: cs =>
    if c = '\x60' then
      match cs with
      | [] => some ([], [])
      | d :: ds => if d = '\x60' then readBehind d (nameRest? ds) else some ([], d :: ds)
    else readBehind c (nameRest? cs)

/-- What is read behind an opening quote at the beginning of a text, and the text that is left. -/
def readQuoted? (quote : Char) (rest? : List Char → Option (List Char × List Char)) (t : String) :
    Option (String × String) :=
  match t.toList with
  | [] => none
  | c :: cs =>
    if c = quote then (rest? cs).map fun read => (String.ofList read.1, String.ofList read.2) else none

/-- A string in single quotes at the beginning of a text. -/
def readString? : String → Option (String × String) := readQuoted? '\x27' stringRest?

/-- A name in backticks at the beginning of a text. -/
def readName? : String → Option (String × String) := readQuoted? '\x60' nameRest?

theorem readQuoted?_eq_some_iff {quote : Char} {rest? : List Char → Option (List Char × List Char)}
    {t s r : String} {cs : List Char} (h : t.toList = quote :: cs) :
    readQuoted? quote rest? t = some (s, r) ↔ rest? cs = some (s.toList, r.toList) := by
  have hread : readQuoted? quote rest? t =
      (rest? cs).map fun read => (String.ofList read.1, String.ofList read.2) := by
    simp [readQuoted?, h]
  rw [hread, Option.map_eq_some_iff]
  constructor
  · rintro ⟨read, hrest, hpair⟩
    obtain ⟨rfl, rfl⟩ := Prod.mk.inj hpair
    rw [hrest, String.toList_ofList, String.toList_ofList]
  · intro hrest
    exact ⟨_, hrest, by rw [String.ofList_toList, String.ofList_toList]⟩

/-- If every character of a body is read as itself, so is the whole body, whatever follows it. -/
theorem rest?_flatMap {rest? : List Char → Option (List Char × List Char)} {f : Char → List Char}
    (h : ∀ c r, rest? (f c ++ r) = readBehind c (rest? r)) (cs r : List Char) :
    rest? (cs.flatMap f ++ r) = (rest? r).map fun read => (cs ++ read.1, read.2) := by
  induction cs with
  | nil => simp
  | cons c cs ih =>
    rw [List.flatMap_cons, List.append_assoc, h, ih, readBehind, Option.map_map]
    rfl

theorem stringRest?_of_ne {c : Char} (hquote : c ≠ '\x27') (hslash : c ≠ '\\') (r : List Char) :
    stringRest? (c :: r) = readBehind c (stringRest? r) := by
  cases r <;> simp [stringRest?, hquote, hslash]

theorem nameRest?_of_ne {c : Char} (hquote : c ≠ '\x60') (r : List Char) :
    nameRest? (c :: r) = readBehind c (nameRest? r) := by
  cases r <;> simp [nameRest?, hquote]

theorem stringRest?_stringChar (c : Char) (r : List Char) :
    stringRest? (stringChar c ++ r) = readBehind c (stringRest? r) := by
  unfold stringChar
  split
  · rfl
  · next h =>
    obtain ⟨hslash, hquote⟩ := not_or.mp h
    rw [List.singleton_append, stringRest?_of_ne hquote hslash]

theorem nameRest?_nameChar (c : Char) (r : List Char) :
    nameRest? (nameChar c ++ r) = readBehind c (nameRest? r) := by
  unfold nameChar
  split
  · next h =>
    subst h
    rfl
  · next h => rw [List.singleton_append, nameRest?_of_ne h]

/-- A quoted string ends at its own closing quote. -/
theorem stringRest?_quoted (cs r : List Char) :
    stringRest? (cs.flatMap stringChar ++ '\x27' :: r) = some (cs, r) := by
  have hclose : stringRest? ('\x27' :: r) = some ([], r) := by cases r <;> rfl
  rw [rest?_flatMap stringRest?_stringChar, hclose, Option.map_some, List.append_nil]

/-- A backtick closes a name unless another one follows. -/
theorem nameRest?_backtick {r : List Char} (h : r.head? ≠ some '\x60') :
    nameRest? ('\x60' :: r) = some ([], r) := by
  cases r with
  | nil => rfl
  | cons d ds =>
    have hd : d ≠ '\x60' := fun hd => h (congrArg some hd)
    exact if_neg hd

/-- A quoted name ends at its own closing quote exactly if no other backtick follows it. -/
theorem nameRest?_quoted_iff (cs r : List Char) :
    nameRest? (cs.flatMap nameChar ++ '\x60' :: r) = some (cs, r) ↔ r.head? ≠ some '\x60' := by
  rw [rest?_flatMap nameRest?_nameChar]
  constructor
  · intro h hr
    obtain ⟨ds, rfl⟩ := List.head?_eq_some_iff.mp hr
    have hdoubled : nameRest? ('\x60' :: '\x60' :: ds) = readBehind '\x60' (nameRest? ds) :=
      nameRest?_nameChar '\x60' ds
    -- The two backticks are read as one more character of the name.
    rw [hdoubled, readBehind, Option.map_map, Option.map_eq_some_iff] at h
    obtain ⟨read, -, hread⟩ := h
    exact absurd (Prod.mk.inj hread).1 (by simp)
  · intro hr
    rw [nameRest?_backtick hr, Option.map_some, List.append_nil]

theorem escapedString_eq_replaced (s : String) :
    escapedString s = replaced '\x27' "\\'" (replaced '\\' "\\\\" s) := by
  have hchar : ∀ c, stringChar c =
      (if c = '\\' then "\\\\".toList else [c]).flatMap fun d => if d = '\x27' then "\\'".toList else [d] := by
    intro c
    unfold stringChar
    by_cases hslash : c = '\\'
    · subst hslash
      decide
    · by_cases hquote : c = '\x27'
      · subst hquote
        decide
      · simp [hslash, hquote]
  simp only [escapedString, replaced, String.toList_ofList, List.flatMap_assoc, ← hchar]

/-- The two quotations are replacements, of which the second one for strings leaves alone what the first
one puts in, and both are undone by their readers: a quoted string is read back in front of any text, and
a quoted name in front of every text that does not go on with a backtick. -/
theorem quoted_read_back (s r : String) :
    (escapedString s = replaced '\x27' "\\'" (replaced '\\' "\\\\" s) ∧
      quotedString s = "'" ++ escapedString s ++ "'" ∧
      quotedName s = "\x60" ++ replaced '\x60' "\x60\x60" s ++ "\x60") ∧
    readString? (quotedString s ++ r) = some (s, r) ∧
    (readName? (quotedName s ++ r) = some (s, r) ↔ r.toList.head? ≠ some '\x60') := by
  refine ⟨⟨escapedString_eq_replaced s, ?_, ?_⟩, ?_, ?_⟩
  · rw [← String.toList_inj]
    simp
  · rw [← String.toList_inj]
    simp only [toList_quotedName, String.toList_append, replaced, String.toList_ofList]
    rfl
  · have hlist : (quotedString s ++ r).toList = '\x27' :: (s.toList.flatMap stringChar ++ '\x27' :: r.toList) := by
      simp
    rw [readString?, readQuoted?_eq_some_iff hlist]
    exact stringRest?_quoted s.toList r.toList
  · have hlist : (quotedName s ++ r).toList = '\x60' :: (s.toList.flatMap nameChar ++ '\x60' :: r.toList) := by
      simp
    rw [readName?, readQuoted?_eq_some_iff hlist]
    exact nameRest?_quoted_iff s.toList r.toList

example : readString? "'a\\\\\\'b' AS c" = some ("a\\'b", " AS c") := by decide +kernel
example : readName? "\x60a\x60\x60\x60:\x60b\x60" = some ("a\x60", ":\x60b\x60") := by decide +kernel
example : readName? "\x60a\x60\x60b" = none := by decide +kernel

end GraphQuery.Text
