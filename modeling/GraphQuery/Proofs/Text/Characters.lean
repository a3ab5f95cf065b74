import GraphQuery.Literal
import GraphQuery.Text.Character
import GraphQuery.Text.Identifier

/-! Which characters stand in names and numbers. None of them is blank, and none opens, closes or
escapes quoted text. -/
namespace GraphQuery.Text

/-- The characters that open, close or escape quoted text. -/
def isQuoting (c : Char) : Bool := c == '\x27' || c == '\x60' || c == '\\'

/-- No character of the text is quoting. -/
def Plain (s : String) : Prop := ∀ c ∈ s.toList, isQuoting c = false

instance (s : String) : Decidable (Plain s) :=
  List.decidableBAll (fun c => isQuoting c = false) s.toList

theorem Plain.append {s t : String} (hs : Plain s) (ht : Plain t) : Plain (s ++ t) := fun c hc => by
  rw [String.toList_append] at hc
  exact (List.mem_append.mp hc).elim (hs c) (ht c)

theorem Plain.ite {p : Prop} [Decidable p] {s t : String} (hs : Plain s) (ht : Plain t) :
    Plain (if p then s else t) := by
  split
  · exact hs
  · exact ht

/-- The code points of the blank characters and of the quoting ones. -/
def delimiters : List Nat :=
  [0x09, 0x0A, 0x0B, 0x0C, 0x0D, 0x20, 0x85, 0xA0, 0x1680, 0x2000, 0x2001, 0x2002, 0x2003, 0x2004,
    0x2005, 0x2006, 0x2007, 0x2008, 0x2009, 0x200A, 0x2028, 0x2029, 0x202F, 0x205F, 0x3000, 0x27, 0x60,
    0x5C]

theorem toNat_mem_delimiters {c : Char} (h : isBlank c = true ∨ isQuoting c = true) :
    c.toNat ∈ delimiters := by
  simp only [delimiters, List.mem_cons, List.not_mem_nil, or_false]
  rcases h with h | h
  · simp only [isBlank, Bool.or_eq_true, Bool.and_eq_true, decide_eq_true_eq] at h
    omega
  · simp only [isQuoting, Bool.or_eq_true, beq_iff_eq] at h
    obtain (rfl | rfl) | rfl := h <;> decide

/-- Characters of a kind that holds none of the delimiters are neither blank nor quoting. -/
theorem not_delimiter {p : Char → Bool} (hp : ∀ n ∈ delimiters, p (Char.ofNat n) = false) {c : Char}
    (hc : p c = true) : isBlank c = false ∧ isQuoting c = false := by
  have h : ¬ (isBlank c = true ∨ isQuoting c = true) := fun h => by
    have hn := hp _ (toNat_mem_delimiters h)
    rw [Char.ofNat_toNat, hc] at hn
    exact absurd hn (by decide)
  simpa using h

theorem isNamePart_not_delimiter {c : Char} (h : isNamePart c = true) :
    isBlank c = false ∧ isQuoting c = false :=
  not_delimiter (p := isNamePart) (by decide +kernel) h

theorem isNamePart_of_mem {s : String} (h : isIdentifier s = true) {c : Char} (hc : c ∈ s.toList) :
    isNamePart c = true := by
  unfold isIdentifier at h
  split at h
  · next hs => simp [hs] at hc
  · next d rest hs =>
    simp only [Bool.and_eq_true, List.all_eq_true] at h
    rw [hs, List.mem_cons] at hc
    obtain rfl | hc := hc
    · have hd := h.1
      simp only [isNameStart, isNamePart, Bool.or_eq_true] at hd ⊢
      exact .inl hd
    · exact h.2 c hc

/-- The characters of numbers. -/
def isNumeral (c : Char) : Bool := c.isDigit || c == '.' || c == '-'

theorem isNumeral_not_delimiter {c : Char} (h : isNumeral c = true) :
    isBlank c = false ∧ isQuoting c = false :=
  not_delimiter (p := isNumeral) (by decide +kernel) h

theorem isNumeral_of_isDigit {c : Char} (h : c.isDigit = true) : isNumeral c = true := by
  simp [isNumeral, h]

theorem isNumeral_of_mem_toDigits {n : Nat} {c : Char} (h : c ∈ Nat.toDigits 10 n) : isNumeral c = true :=
  isNumeral_of_isDigit (Nat.isDigit_of_mem_toDigits (by decide) (by decide) h)

theorem toList_toString (n : Nat) : (toString n).toList = Nat.toDigits 10 n := by
  rw [Nat.toString_eq_repr, Nat.toList_repr]

theorem isNumeral_of_mem_toString {n : Nat} {c : Char} (h : c ∈ (toString n).toList) :
    isNumeral c = true := by
  rw [toList_toString] at h
  exact isNumeral_of_mem_toDigits h

theorem isNumeral_of_mem_toString_int {n : Int} {c : Char} (h : c ∈ (toString n).toList) :
    isNumeral c = true := by
  rw [Int.toString_eq_repr, Int.repr_eq_if] at h
  split at h
  · rw [Nat.toList_repr] at h
    exact isNumeral_of_mem_toDigits h
  · rw [String.toList_append, List.mem_append, Nat.toList_repr] at h
    obtain h | h := h
    · obtain rfl : c = '-' := by simpa using h
      decide
    · exact isNumeral_of_mem_toDigits h

theorem isNumeral_of_mem_zeros {n : Nat} {c : Char} (h : c ∈ Decimal.zeros n) : isNumeral c = true := by
  rw [List.eq_of_mem_replicate h]
  decide

theorem isNumeral_of_mem_positional {d : Decimal} {c : Char} (h : c ∈ d.positional) :
    isNumeral c = true := by
  unfold Decimal.positional at h
  split at h
  · exact (List.mem_append.mp h).elim isNumeral_of_mem_toDigits isNumeral_of_mem_zeros
  · split at h
    · simp only [List.mem_append, List.mem_cons] at h
      obtain h | rfl | h := h
      · exact isNumeral_of_mem_toDigits (List.mem_of_mem_take h)
      · decide
      · exact isNumeral_of_mem_toDigits (List.mem_of_mem_drop h)
    · simp only [List.mem_append, List.mem_cons] at h
      obtain rfl | rfl | h | h := h
      · decide
      · decide
      · exact isNumeral_of_mem_zeros h
      · exact isNumeral_of_mem_toDigits h

theorem isNumeral_of_mem_floatText {x : Binary64} {c : Char} (h : c ∈ (Literal.floatText x).toList) :
    isNumeral c = true := by
  have hbody : ∀ {body : List Char} {negative : Bool}, (∀ c ∈ body, isNumeral c = true) →
      c ∈ (if negative then '-' :: body else body) → isNumeral c = true := by
    intro body negative hb hc
    cases negative with
    | true =>
      obtain rfl | hc := List.mem_cons.mp hc
      · decide
      · exact hb c hc
    | false => exact hb c hc
  rw [Literal.floatText, String.toList_ofList] at h
  refine hbody (fun c hc => ?_) h
  split at hc
  · simp only [List.mem_append, List.mem_cons, List.not_mem_nil, or_false] at hc
    obtain hc | rfl | rfl := hc
    · exact isNumeral_of_mem_toDigits hc
    · decide
    · decide
  · exact isNumeral_of_mem_positional hc

theorem plain_of_isIdentifier {s : String} (h : isIdentifier s = true) : Plain s := fun _ hc =>
  (isNamePart_not_delimiter (isNamePart_of_mem h hc)).2

theorem plain_identifier (n : Identifier) : Plain n.text := plain_of_isIdentifier n.valid

theorem plain_toString (n : Nat) : Plain (toString n) := fun _ hc =>
  (isNumeral_not_delimiter (isNumeral_of_mem_toString hc)).2

theorem plain_toString_int (n : Int) : Plain (toString n) := fun _ hc =>
  (isNumeral_not_delimiter (isNumeral_of_mem_toString_int hc)).2

theorem plain_floatText (x : Binary64) : Plain (Literal.floatText x) := fun _ hc =>
  (isNumeral_not_delimiter (isNumeral_of_mem_floatText hc)).2

end GraphQuery.Text
