import GraphQuery.Literal
import GraphQuery.Proofs.Decimal.Shortest

/-! The text of numbers. A float is written with a point and digits behind it, unless it is a whole number
of 10^15 or more; then it is written like the integer that its shortest decimal is. Different floats are
written differently. -/
namespace GraphQuery

open Decimal (isDigit_of_mem_toDigits)

/-- Digits behind a sign, which is written only where it is negative. -/
def signedText (negative : Bool) (cs : List Char) : List Char := if negative then '-' :: cs else cs

/-- The text begins with a digit. -/
def BeginsWithDigit (cs : List Char) : Prop := ∃ c rest, cs = c :: rest ∧ c.isDigit = true

theorem beginsWithDigit_of_forall {cs : List Char} (hne : cs ≠ []) (h : ∀ c ∈ cs, c.isDigit = true) (ds : List Char) :
    BeginsWithDigit (cs ++ ds) := by
  obtain ⟨c, rest, rfl⟩ := List.exists_cons_of_ne_nil hne
  exact ⟨c, rest ++ ds, rfl, h c List.mem_cons_self⟩

theorem beginsWithDigit_toDigits (n : Nat) : BeginsWithDigit (Nat.toDigits 10 n) := by
  have h := beginsWithDigit_of_forall Nat.toDigits_ne_nil (fun c hc => isDigit_of_mem_toDigits (n := n) hc) []
  rwa [List.append_nil] at h

/-- The sign can be told from the digits. -/
theorem signedText_inj {a b : Bool} {cs ds : List Char} (hc : BeginsWithDigit cs) (hd : BeginsWithDigit ds)
    (h : signedText a cs = signedText b ds) : a = b ∧ cs = ds := by
  obtain ⟨c, cs, rfl, hc⟩ := hc
  obtain ⟨d, ds, rfl, hd⟩ := hd
  cases a with
  | false =>
    cases b with
    | false => exact ⟨rfl, h⟩
    | true =>
      obtain ⟨rfl, -⟩ := List.cons_eq_cons.mp h
      exact absurd hc (by decide)
  | true =>
    cases b with
    | false =>
      obtain ⟨rfl, -⟩ := List.cons_eq_cons.mp h
      exact absurd hd (by decide)
    | true => exact ⟨rfl, (List.cons_eq_cons.mp h).2⟩

theorem toList_toString_int (n : Int) :
    (toString n).toList = signedText (decide (n < 0)) (Nat.toDigits 10 n.natAbs) := by
  rw [Int.toString_eq_repr, Int.repr_eq_if]
  by_cases h : 0 ≤ n
  · have hneg : ¬ n < 0 := Int.not_lt.mpr h
    rw [if_pos h, Nat.toList_repr, signedText, decide_eq_false hneg, if_neg (by decide),
      show n.toNat = n.natAbs by omega]
  · have hneg : n < 0 := Int.not_le.mp h
    rw [if_neg h, String.toList_append, Nat.toList_repr, signedText, decide_eq_true hneg, if_pos rfl,
      show (-n).toNat = n.natAbs by omega]
    rfl

/-- A point with digits behind it ends the text. -/
def HasFraction (t : String) : Prop :=
  ∃ before behind, t.toList = before ++ '.' :: behind ∧ behind ≠ [] ∧ ∀ c ∈ behind, c.isDigit = true

/-- There is no point in the text of an integer. -/
theorem not_hasFraction_toString (n : Int) : ¬ HasFraction (toString n) := by
  rintro ⟨before, behind, htext, -⟩
  rw [toList_toString_int] at htext
  have hpoint : '.' ∈ signedText (decide (n < 0)) (Nat.toDigits 10 n.natAbs) := by
    rw [htext]
    exact List.mem_append_right _ List.mem_cons_self
  have hmem : '.' ∈ Nat.toDigits 10 n.natAbs := by
    unfold signedText at hpoint
    split at hpoint
    · exact (List.mem_cons.mp hpoint).resolve_left (by decide)
    · exact hpoint
  exact absurd (isDigit_of_mem_toDigits hmem) (by decide)

namespace Binary64

/-- A whole number of at least 10^15. -/
def IsWide (x : Binary64) : Prop := x.IsWhole ∧ 1000000000000000 ≤ x.whole

instance : DecidablePred IsWide := fun x => inferInstanceAs (Decidable (x.IsWhole ∧ 1000000000000000 ≤ x.whole))

/-- The whole number that the shortest decimal of a wide number is. -/
def writtenWhole (x : Binary64) : Int :=
  let magnitude := (x.shortest .up).digits * 10 ^ (x.shortest .up).exponent.toNat
  if x.negative then -magnitude else magnitude

/-- The text of a float without its sign. -/
def body (x : Binary64) : List Char :=
  if x.units % one = 0 ∧ x.units / one < 1000000000000000 then Nat.toDigits 10 (x.units / one) ++ ['.', '0']
  else (x.shortest .up).positional

variable {x y : Binary64}

theorem toList_floatText (x : Binary64) : (Literal.floatText x).toList = signedText x.negative x.body := by
  unfold Literal.floatText body signedText one
  exact String.toList_ofList

theorem isWhole_of_isZero (h : x.isZero = true) : x.IsWhole ∧ x.whole = 0 := by
  have hs : x.significand = 0 := by simpa [isZero] using h
  have hunits : x.units = 0 := by rw [units, hs, Nat.zero_mul]
  exact ⟨by rw [IsWhole, hunits, Nat.zero_mod], by rw [whole, hunits, Nat.zero_div]⟩

theorem isZero_of_not_isWhole (h : ¬ x.IsWhole) : x.isZero = false := by
  rw [← Bool.not_eq_true]
  exact fun hz => h (isWhole_of_isZero hz).1

theorem IsWide.isZero (h : x.IsWide) : x.isZero = false := by
  rw [← Bool.not_eq_true]
  intro hz
  have hle := h.2
  rw [(isWhole_of_isZero hz).2] at hle
  omega

/-- Zero does not read back as any other number. -/
theorem digits_shortest_pos (hz : x.isZero = false) (tie : Tie) : 0 < (x.shortest tie).digits := by
  refine Nat.pos_of_ne_zero fun hd => ?_
  have hx := (x.shortest_spec tie).2
  have h0 := (zero false).contains_value
  rw [Decimal.scaled, hd, Nat.zero_mul] at hx
  have hvalue : (zero false).around.value = 0 := by
    rw [around_value, zero, Nat.mul_zero, Nat.zero_mul]
  rw [hvalue] at h0
  have hsig := (magnitude_eq_of_contains hx h0).1
  rw [isZero, hsig] at hz
  exact absurd hz (by decide)

section Body

theorem body_of_narrow (h : x.IsWhole) (hw : x.whole < 1000000000000000) :
    x.body = Nat.toDigits 10 x.whole ++ ['.', '0'] := if_pos ⟨h, hw⟩

theorem body_of_isWide (h : x.IsWide) : x.body = (x.shortest .up).positional :=
  if_neg fun hn => absurd h.2 (Nat.not_le.mpr hn.2)

theorem body_of_not_isWhole (h : ¬ x.IsWhole) : x.body = (x.shortest .up).positional := if_neg fun hn => h hn.1

/-- A wide number is written as a whole number. -/
theorem body_eq_toDigits (h : x.IsWide) : x.body = Nat.toDigits 10 x.writtenWhole.natAbs := by
  have habs : x.writtenWhole.natAbs = (x.shortest .up).digits * 10 ^ (x.shortest .up).exponent.toNat := by
    unfold writtenWhole
    dsimp only
    split
    · rw [Int.natAbs_neg, Int.natAbs_natCast]
    · rw [Int.natAbs_natCast]
  rw [body_of_isWide h, habs, Decimal.toDigits_mul_pow (digits_shortest_pos h.isZero .up),
    Decimal.positional_of_nonneg ((exponent_nonneg_iff h.isZero).mpr h.1)]

/-- All other numbers have digits on both sides of a point. -/
theorem exists_body (h : ¬ x.IsWide) : ∃ before behind : List Char, x.body = before ++ '.' :: behind ∧
    before ≠ [] ∧ behind ≠ [] ∧ ∀ c ∈ before ++ behind, c.isDigit = true := by
  by_cases hw : x.IsWhole
  · have hlt : x.whole < 1000000000000000 := Nat.not_le.mp fun hle => h ⟨hw, hle⟩
    refine ⟨Nat.toDigits 10 x.whole, ['0'], body_of_narrow hw hlt, Nat.toDigits_ne_nil, List.cons_ne_nil _ _, ?_⟩
    intro c hc
    rw [List.mem_append, List.mem_singleton] at hc
    obtain hc | rfl := hc
    · exact isDigit_of_mem_toDigits hc
    · decide
  · have hneg : (x.shortest .up).exponent < 0 :=
      Int.not_le.mp fun he => hw ((exponent_nonneg_iff (isZero_of_not_isWhole hw)).mp he)
    obtain ⟨before, behind, htext, hbefore, hbehind, hdigits, -⟩ := Decimal.exists_positional hneg
    exact ⟨before, behind, by rw [body_of_not_isWhole hw, htext], hbefore, hbehind, hdigits⟩

theorem beginsWithDigit_body (x : Binary64) : BeginsWithDigit x.body := by
  by_cases h : x.IsWide
  · rw [body_eq_toDigits h]
    exact beginsWithDigit_toDigits _
  · obtain ⟨before, behind, htext, hbefore, -, hdigits⟩ := exists_body h
    rw [htext]
    exact beginsWithDigit_of_forall hbefore (fun c hc => hdigits c (List.mem_append_left _ hc)) _

/-- The written digits read back as the number. -/
theorem contains_ofText_body (x : Binary64) :
    x.around.contains ((Decimal.ofText x.body).scaled decimalPlaces) = true := by
  by_cases h : x.IsWhole ∧ x.whole < 1000000000000000
  · have htext : Decimal.ofText x.body = ⟨x.whole * 10, -1⟩ := by
      rw [body_of_narrow h.1 h.2, Decimal.ofText_point fun c hc => isDigit_of_mem_toDigits hc, Nat.ofDigitChars_append,
        Nat.ofDigitChars_ten_toDigits, Nat.mul_comm]
      rfl
    have hplaces : ((-1 : Int) + decimalPlaces).toNat = decimalPlaces - 1 := by omega
    have hten : tens = 10 * Nat.pow 10 (decimalPlaces - 1) := by
      refine pow_add_eq (b := 10) (m := 1) ?_
      rw [decimalPlaces_eq]
    rw [htext, Decimal.scaled]
    dsimp only
    rw [hplaces, Nat.mul_assoc, ← Nat.pow_eq, ← hten, ← around_value_of_isWhole h.1]
    exact x.contains_value
  · have htext : x.body = (x.shortest .up).positional := if_neg h
    rw [htext, Decimal.scaled_ofText_positional]
    exact (x.shortest_spec .up).2

end Body

/-- Different floats are written differently, the two zeros included. -/
theorem floatText_injective (h : Literal.floatText x = Literal.floatText y) : x = y := by
  have htext := congrArg String.toList h
  rw [toList_floatText, toList_floatText] at htext
  obtain ⟨hnegative, hbody⟩ := signedText_inj x.beginsWithDigit_body y.beginsWithDigit_body htext
  have hy := y.contains_ofText_body
  rw [← hbody] at hy
  obtain ⟨hsig, hshift⟩ := magnitude_eq_of_contains x.contains_ofText_body hy
  cases x
  cases y
  simp_all

theorem writtenWhole_neg_iff (h : x.IsWide) : decide (x.writtenWhole < 0) = x.negative := by
  have hdigits := digits_shortest_pos h.isZero .up
  have hpos : 0 < (x.shortest .up).digits * 10 ^ (x.shortest .up).exponent.toNat :=
    Nat.mul_pos hdigits (Nat.pow_pos (by decide))
  unfold writtenWhole
  generalize (x.shortest .up).digits * 10 ^ (x.shortest .up).exponent.toNat = magnitude at hpos
  cases x.negative with
  | true => simpa using hpos
  | false => simp

theorem floatText_of_isWide (h : x.IsWide) : Literal.floatText x = toString x.writtenWhole := by
  rw [← String.toList_inj, toList_floatText, toList_toString_int, writtenWhole_neg_iff h, body_eq_toDigits h]

/-- A point is written exactly where the number is not wide. -/
theorem hasFraction_iff : HasFraction (Literal.floatText x) ↔ ¬ x.IsWide := by
  constructor
  · intro h hwide
    rw [floatText_of_isWide hwide] at h
    exact not_hasFraction_toString _ h
  · intro h
    obtain ⟨before, behind, htext, -, hbehind, hdigits⟩ := exists_body h
    refine ⟨signedText x.negative before, behind, ?_, hbehind, fun c hc => hdigits c (List.mem_append_right _ hc)⟩
    rw [toList_floatText, htext, signedText, signedText]
    split <;> rfl

end Binary64

theorem toString_int_injective {m n : Int} (h : toString m = toString n) : m = n := by
  have htext := congrArg String.toList h
  rw [toList_toString_int, toList_toString_int] at htext
  obtain ⟨hsign, hdigits⟩ := signedText_inj (beginsWithDigit_toDigits _) (beginsWithDigit_toDigits _) htext
  have habs : m.natAbs = n.natAbs := by
    rw [← Nat.ofDigitChars_ten_toDigits (n := m.natAbs), hdigits, Nat.ofDigitChars_ten_toDigits]
  rw [decide_eq_decide] at hsign
  omega

/-- An integer is written like a float exactly if the float is wide and the integer is its shortest decimal. -/
theorem toString_eq_floatText_iff {n : Int} {x : Binary64} :
    toString n = Literal.floatText x ↔ x.IsWide ∧ n = x.writtenWhole := by
  constructor
  · intro h
    have hwide : x.IsWide := by
      by_contra hnot
      have hfraction := Binary64.hasFraction_iff.mpr hnot
      rw [← h] at hfraction
      exact not_hasFraction_toString n hfraction
    refine ⟨hwide, toString_int_injective ?_⟩
    rw [h, Binary64.floatText_of_isWide hwide]
  · rintro ⟨hwide, rfl⟩
    rw [Binary64.floatText_of_isWide hwide]

end GraphQuery
