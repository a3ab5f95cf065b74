import GraphQuery.Toml.Parser
import GraphQuery.Proofs.Toml.Strings
import GraphQuery.Proofs.Decimal.Reading

/-! Values read back from their text. A string, a whole number or a truth value that stands at the end of a line is
read as it was written, and the line end is left. -/
namespace GraphQuery.Toml

section Digits

variable {ds : List Char} {c : Char} {n : Nat}

theorem ne_of_isDigit {d : Char} (hc : c.isDigit = true) (hd : d.isDigit = false) : c ≠ d := by
  rintro rfl
  exact absurd (hc.symm.trans hd) (by decide)

theorem hexValue?_of_isDigit (h : c.isDigit = true) :
    hexValue? c = some (c.toNat - '0'.toNat) ∧ c.toNat - '0'.toNat < 10 := by
  simp only [Char.isDigit, Bool.and_eq_true, decide_eq_true_eq] at h
  refine ⟨if_pos h, ?_⟩
  have hle : c.toNat ≤ '9'.toNat := h.2
  have hbound : '9'.toNat = 57 := rfl
  have hzero : '0'.toNat = 48 := rfl
  omega

theorem valueOf_digits (h : ∀ c ∈ ds, c.isDigit = true) : valueOf 10 ds = Nat.ofDigitChars 10 ds 0 := by
  suffices hfold : ∀ start,
      ds.foldl (fun n c => n * 10 + (hexValue? c).getD 0) start = Nat.ofDigitChars 10 ds start from hfold 0
  induction ds with
  | nil => exact fun _ => rfl
  | cons c ds ih =>
    intro start
    simp only [List.mem_cons, forall_eq_or_imp] at h
    rw [List.foldl_cons, ih h.2, Nat.ofDigitChars_cons, (hexValue?_of_isDigit h.1).1, Option.getD_some, Nat.mul_comm]

theorem eq_zero_of_toDigits (h : Nat.toDigits 10 n = '0' :: ds) : n = 0 := by
  induction n using Nat.strongRecOn generalizing ds with
  | ind n ih =>
    by_cases hn : n < 10
    · rw [Nat.toDigits_of_lt_base hn, List.cons.injEq] at h
      have hdigit : ∀ n < 10, n.digitChar = '0' → n = 0 := by decide
      exact hdigit n hn h.1
    · rw [Nat.toDigits_of_base_le (by decide) (Nat.le_of_not_lt hn)] at h
      obtain ⟨d, front, hfront⟩ := List.exists_cons_of_ne_nil (Nat.toDigits_ne_nil (b := 10) (n := n / 10))
      rw [hfront, List.cons_append, List.cons.injEq] at h
      obtain ⟨rfl, -⟩ := h
      have hzero := ih (n / 10) (by omega) hfront
      omega

end Digits

section Numbers

variable {ds : List Char} {n : Nat}

theorem not_mem_of_digits (h : ∀ c ∈ ds, c.isDigit = true) {c : Char} (hc : c.isDigit = false) : c ∉ ds :=
  fun hmem => absurd ((h c hmem).symm.trans hc) (by decide)

theorem expect?_digits (h : ∀ c ∈ ds, c.isDigit = true) {c : Char} (hc : c.isDigit = false) : expect? c ds = none := by
  cases ds with
  | nil => rfl
  | cons d ds => exact if_neg (ne_of_isDigit (h d List.mem_cons_self) hc)

/-- What is read behind a field of digits is told by what it makes of digits. -/
theorem bind_field?_digits {α : Type} {f : Nat × List Char → Option α} (h : ∀ c ∈ ds, c.isDigit = true)
    (n low high : Nat) (hf : ∀ v rest, (∀ c ∈ rest, c.isDigit = true) → f (v, rest) = none) : (field? n low high ds).bind f = none := by
  cases hfield : field? n low high ds with
  | none => rfl
  | some r =>
    simp only [field?, Option.ite_none_right_eq_some, Option.some.injEq] at hfield
    obtain ⟨-, rfl⟩ := hfield
    exact hf _ _ fun c hc => h c (List.mem_of_mem_drop hc)

/-- Digits alone are no date and no time, since nothing stands between them. -/
theorem isDateTime_digits (h : ∀ c ∈ ds, c.isDigit = true) : isDateTime ds = false := by
  have hdate : date? ds = none := bind_field?_digits h 4 0 9999 fun year rest hrest => by
    dsimp only [Option.bind_eq_bind]
    rw [expect?_digits hrest (by decide), Option.bind_none]
  have htime : time? ds = none := bind_field?_digits h 2 0 23 fun hour rest hrest => by
    dsimp only [Option.bind_eq_bind]
    rw [expect?_digits hrest (by decide), Option.bind_none]
  rw [isDateTime, hdate, htime]
  rfl

theorem underscoresInside_digits (isDigit : Char → Bool) (afterDigit : Bool) (h : ∀ c ∈ ds, c.isDigit = true) :
    underscoresInside isDigit afterDigit ds = true := by
  induction ds generalizing afterDigit with
  | nil => rfl
  | cons c ds ih =>
    simp only [List.mem_cons, forall_eq_or_imp] at h
    have hc : c ≠ '_' := ne_of_isDigit h.1 (by decide)
    rw [underscoresInside.eq_4 _ _ _ _ (fun heq _ => hc heq) (fun _ _ heq _ => hc heq), ih _ h.2]

theorem integer?_digits (h : ∀ c ∈ ds, c.isDigit = true) (hne : ds ≠ [])
    (hn : Nat.ofDigitChars 10 ds 0 < 340282366920938463463374607431768211456) :
    integer? 10 false ds = some (.integer (Nat.ofDigitChars 10 ds 0)) := by
  have hfilter : ds.filter (· != '_') = ds :=
    List.filter_eq_self.mpr fun c hc => bne_iff_ne.mpr (ne_of_isDigit (h c hc) (by decide))
  have hdigits : (ds.isEmpty || !ds.all (isDigitOf 10)) = false := by
    have hall : ds.all (isDigitOf 10) = true := List.all_eq_true.mpr fun c hc => by
      obtain ⟨hvalue, hlt⟩ := hexValue?_of_isDigit (h c hc)
      rw [isDigitOf, hvalue]
      exact decide_eq_true hlt
    simp [hall, hne]
  have hvalue : integerValue? 10 false ds = some (Nat.ofDigitChars 10 ds 0 : Int) := by
    rw [integerValue?, hdigits, valueOf_digits h]
    simp only [Bool.false_eq_true, if_false]
    exact if_pos (by omega)
  rw [integer?, underscoresInside_digits _ _ h]
  dsimp only
  rw [if_pos rfl, hfilter, hvalue]
  rfl

theorem splitSign_digits (h : ∀ c ∈ ds, c.isDigit = true) : splitSign ds = (false, ds) := by
  refine splitSign.eq_3 ds ?_ ?_ <;> rintro rest rfl
  · exact not_mem_of_digits h (by decide) List.mem_cons_self
  · exact not_mem_of_digits h (by decide) List.mem_cons_self

/-- Only the digits of zero begin with a zero. -/
theorem decimal?_toDigits (hn : n < 340282366920938463463374607431768211456) :
    decimal? (Nat.toDigits 10 n) = some (.integer n) := by
  obtain rfl | hpos := Nat.eq_zero_or_pos n
  · rfl
  have h : ∀ c ∈ Nat.toDigits 10 n, c.isDigit = true := fun c hc => Decimal.isDigit_of_mem_toDigits hc
  have hinteger := integer?_digits h Nat.toDigits_ne_nil (Nat.ofDigitChars_ten_toDigits ▸ hn)
  rw [Nat.ofDigitChars_ten_toDigits] at hinteger
  have hword : ¬ (Nat.toDigits 10 n = ['i', 'n', 'f'] ∨ Nat.toDigits 10 n = ['n', 'a', 'n']) := by
    have hmem := not_mem_of_digits (c := 'n') h (by decide)
    rintro (heq | heq) <;> exact hmem (heq ▸ by decide)
  have hpoint : ((Nat.toDigits 10 n).any fun c => c == '.' || c == 'e' || c == 'E') = false := by
    refine List.any_eq_false.mpr fun c hc => ?_
    have hne := fun d hd => ne_of_isDigit (d := d) (h c hc) hd
    simp [hne '.' (by decide), hne 'e' (by decide), hne 'E' (by decide)]
  have hzero : ∀ ds, Nat.toDigits 10 n ≠ '0' :: ds := fun ds heq => Nat.ne_of_gt hpos (eq_zero_of_toDigits heq)
  have hdrop : (Nat.toDigits 10 n).dropWhile Char.isDigit = [] := List.dropWhile_eq_nil_iff.mpr h
  rw [decimal?, splitSign_digits h]
  dsimp only
  rw [if_neg hword, hpoint, hdrop]
  simp only [Bool.false_eq_true, if_false]
  split
  · next heq => exact absurd heq Nat.toDigits_ne_nil
  · next heq => exact absurd heq (hzero _)
  · next heq => exact absurd heq (hzero _)
  · exact hinteger
  · next heq _ _ _ => cases heq
  · next hnil _ => exact absurd rfl hnil

theorem scalar?_toDigits (hn : n < 340282366920938463463374607431768211456) :
    scalar? (Nat.toDigits 10 n) = some (.integer n) := by
  have h : ∀ c ∈ Nat.toDigits 10 n, c.isDigit = true := fun c hc => Decimal.isDigit_of_mem_toDigits hc
  have hword : ∀ c word, c.isDigit = false → c ∈ word → Nat.toDigits 10 n ≠ word :=
    fun c word hc hmem heq => not_mem_of_digits h hc (heq ▸ hmem)
  rw [scalar?, if_neg (hword 't' _ (by decide) (by decide)), if_neg (hword 'f' _ (by decide) (by decide)),
    isDateTime_digits h]
  · exact decimal?_toDigits hn
  · exact fun ds => hword 'x' _ (by decide) (by simp)
  · exact fun ds => hword 'o' _ (by decide) (by simp)
  · exact fun ds => hword 'b' _ (by decide) (by simp)

end Numbers

namespace Parser

/-- The value that a text stands for between an equals sign and the end of a line. -/
def Denotes (text : List Char) (v : Toml) : Prop :=
  ∀ fuel rest, value? (fuel + 1) depthLimit (skipSpaces (' ' :: (text ++ '\n' :: rest))) = some (v, '\n' :: rest)

theorem skipSpaces_cons {c : Char} (hc : isSpace c = false) (cs : List Char) :
    skipSpaces (' ' :: c :: cs) = c :: cs := by
  rw [skipSpaces, List.dropWhile_cons_of_pos rfl, List.dropWhile_cons_of_neg (by simp [hc])]

theorem scalarText_line {text : List Char} (h : ∀ c ∈ text, isDelimiter c = false) (rest : List Char) :
    scalarText (text ++ '\n' :: rest) = (text, '\n' :: rest) := by
  have hpos : ∀ c ∈ text, (!isDelimiter c) = true := fun c hc => by rw [h c hc]; rfl
  obtain ⟨htake, hdrop⟩ := Decimal.takeWhile_dropWhile_append_cons (d := '\n') hpos (by decide) rest
  rw [scalarText, htake, hdrop]
  split
  · next heq => cases heq
  · rfl

/-- Characters that stand in no scalar but a string. -/
def isForeign (c : Char) : Bool := isDelimiter c || c == '"' || c == '\x27'

theorem denotes_scalar {text : List Char} {v : Toml} (hne : text ≠ []) (hplain : text.any isForeign = false)
    (h : scalar? text = some v) : Denotes text v := by
  intro fuel rest
  have hforeign : ∀ c ∈ text, isDelimiter c = false ∧ ¬ (c = '"' ∨ c = '\x27') := by
    intro c hc
    simpa [isForeign, not_or, and_assoc] using List.any_eq_false.mp hplain c hc
  obtain ⟨c, text, rfl⟩ := List.exists_cons_of_ne_nil hne
  obtain ⟨hc, hquote⟩ := hforeign c List.mem_cons_self
  have hspace : isSpace c = false := (Bool.or_eq_false_iff.mp hc).1
  have hbrackets : c ≠ '[' ∧ c ≠ '\x7b' := by
    constructor <;> rintro rfl <;> cases hc
  rw [List.cons_append, skipSpaces_cons hspace, value?.eq_4 _ _ _ _ (fun _ _ => hbrackets.1) (fun _ _ => hbrackets.2),
    if_neg hquote, ← List.cons_append, scalarText_line fun c hc => (hforeign c hc).1]
  dsimp only
  rw [h]
  rfl

theorem isForeign_of_isDigit {c : Char} (hc : c.isDigit = true) : isForeign c = false := by
  have hne : ∀ d ∈ [' ', '\t', ',', '=', '#', '[', ']', '\x7b', '\x7d', '\n', '\r', '"', '\x27'], c ≠ d := by
    refine fun d hd => ne_of_isDigit hc ?_
    revert d
    simp only [List.forall_mem_cons, List.not_mem_nil, false_implies, implies_true, and_true]
    decide
  simpa [isForeign, isDelimiter, isSpace, and_assoc] using hne

theorem denotes_number (n : UInt64) : Denotes (toString n.toNat).toList (.integer n.toNat) := by
  have hlt : n.toNat < 18446744073709551616 := n.toNat_lt_size
  have hplain : (Nat.toDigits 10 n.toNat).any isForeign = false := List.any_eq_false.mpr fun c hc =>
    Bool.eq_false_iff.mp (isForeign_of_isDigit (Decimal.isDigit_of_mem_toDigits hc))
  rw [Nat.toString_eq_ofList_toDigits, String.toList_ofList]
  exact denotes_scalar Nat.toDigits_ne_nil hplain (scalar?_toDigits (by omega))

theorem denotes_boolean (b : Bool) : Denotes (if b then "true" else "false").toList (.boolean b) := by
  cases b
  · exact denotes_scalar (by decide) (by decide) rfl
  · exact denotes_scalar (by decide) (by decide) rfl

theorem denotes_string (s : String) : Denotes (writeString s).toList (.string s) := by
  intro fuel rest
  obtain ⟨quote, body, htext, hquote⟩ := exists_writeChars_eq_cons s.toList
  have hread : readString? (writeChars s.toList ++ '\n' :: rest) = some (s.toList, '\n' :: rest) :=
    readString?_writeChars ⟨nofun, nofun⟩
  have hspace : isSpace quote = false := by
    obtain rfl | rfl := hquote <;> rfl
  have hbrackets : quote ≠ '[' ∧ quote ≠ '\x7b' := by
    obtain rfl | rfl := hquote <;> decide
  rw [htext, List.cons_append] at hread
  rw [writeString, String.toList_ofList, htext, List.cons_append, skipSpaces_cons hspace,
    value?.eq_4 _ _ _ _ (fun _ _ => hbrackets.1) (fun _ _ => hbrackets.2), if_pos hquote, hread]
  simp

end Parser

end GraphQuery.Toml
