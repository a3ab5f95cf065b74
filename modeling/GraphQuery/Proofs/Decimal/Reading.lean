import GraphQuery.Decimal.Layout
import Mathlib.Data.List.TakeWhile
import Mathlib.Tactic.Ring

/-! Decimals read back from their digits. What is read is the decimal that was written, except that a
whole number has lost its power of ten: its zeros are digits like all others. -/
namespace GraphQuery.Decimal

variable {d : Decimal} {n : Nat}

/-- The decimal that digits stand for, with a point among them or without one. -/
def ofText (cs : List Char) : Decimal :=
  let places := (cs.dropWhile Char.isDigit).drop 1
  ⟨Nat.ofDigitChars 10 (cs.takeWhile Char.isDigit ++ places) 0, -places.length⟩

/-- The number in units of `10 ^ -n`, where it is a whole number of these. -/
def scaled (d : Decimal) (n : Nat) : Nat := d.digits * 10 ^ (d.exponent + n).toNat

/-- The number is a whole number of units of `10 ^ -n`. -/
def FitsScale (d : Decimal) (n : Nat) : Prop := 0 ≤ d.exponent + n

theorem scaled_of_nonneg (h : 0 ≤ d.exponent) : d.scaled n = d.digits * 10 ^ d.exponent.toNat * Nat.pow 10 n := by
  have hsplit : (d.exponent + n).toNat = d.exponent.toNat + n := by omega
  rw [scaled, hsplit, Nat.pow_add, Nat.mul_assoc, Nat.pow_eq]

section Digits

theorem isDigit_of_mem_toDigits {c : Char} (h : c ∈ Nat.toDigits 10 n) : c.isDigit = true :=
  Nat.isDigit_of_mem_toDigits (by decide) (by decide) h

theorem isDigit_of_mem_zeros {c : Char} (h : c ∈ zeros n) : c.isDigit = true := by
  rw [List.eq_of_mem_replicate h]
  decide

theorem ofDigitChars_zeros (cs : List Char) :
    Nat.ofDigitChars 10 (zeros n ++ cs) 0 = Nat.ofDigitChars 10 cs 0 := by
  rw [zeros, Nat.ofDigitChars_append, Nat.ofDigitChars_replicate_zero, Nat.mul_zero]

/-- A power of ten writes zeros behind the digits of a number. -/
theorem toDigits_mul_pow (hn : 0 < n) (k : Nat) : Nat.toDigits 10 (n * 10 ^ k) = Nat.toDigits 10 n ++ zeros k := by
  induction k with
  | zero => simp [zeros]
  | succ k ih =>
    have hpos : 0 < n * 10 ^ k := Nat.mul_pos hn (Nat.pow_pos (by decide))
    have hshift : n * 10 ^ (k + 1) = 10 * (n * 10 ^ k) + 0 := by ring
    rw [hshift, ← Nat.toDigits_append_toDigits (by decide) hpos (by decide), ih, Nat.toDigits_zero, zeros, zeros,
      List.replicate_succ', List.append_assoc]

theorem ofText_digits {cs : List Char} (h : ∀ c ∈ cs, c.isDigit = true) :
    ofText cs = ⟨Nat.ofDigitChars 10 cs 0, 0⟩ := by
  have htake : cs.takeWhile Char.isDigit = cs := List.takeWhile_eq_self_iff.mpr h
  have hdrop : cs.dropWhile Char.isDigit = [] := List.dropWhile_eq_nil_iff.mpr h
  simp [ofText, htake, hdrop]

/-- Characters of one class, up to the first one of another. -/
theorem takeWhile_dropWhile_append_cons {p : Char → Bool} {cs : List Char} {d : Char} (h : ∀ c ∈ cs, p c = true)
    (hd : p d = false) (rest : List Char) :
    (cs ++ d :: rest).takeWhile p = cs ∧ (cs ++ d :: rest).dropWhile p = d :: rest := by
  have hneg : ¬ p d = true := Bool.eq_false_iff.mp hd
  rw [List.takeWhile_append_of_pos h, List.takeWhile_cons_of_neg hneg, List.dropWhile_append_of_pos h,
    List.dropWhile_cons_of_neg hneg, List.append_nil]
  exact ⟨rfl, rfl⟩

theorem ofText_point {cs ds : List Char} (h : ∀ c ∈ cs, c.isDigit = true) :
    ofText (cs ++ '.' :: ds) = ⟨Nat.ofDigitChars 10 (cs ++ ds) 0, -ds.length⟩ := by
  obtain ⟨htake, hdrop⟩ := takeWhile_dropWhile_append_cons (d := '.') h (by decide) ds
  simp [ofText, htake, hdrop]

end Digits

section Positional

theorem positional_of_nonneg (h : 0 ≤ d.exponent) :
    d.positional = Nat.toDigits 10 d.digits ++ zeros d.exponent.toNat := by
  simp [positional, h]

/-- With places behind the point there is a digit before it and one behind it. -/
theorem exists_positional (h : d.exponent < 0) : ∃ before behind : List Char,
    d.positional = before ++ '.' :: behind ∧ before ≠ [] ∧ behind ≠ [] ∧
      (∀ c ∈ before ++ behind, c.isDigit = true) ∧ behind.length = -d.exponent ∧
      Nat.ofDigitChars 10 (before ++ behind) 0 = d.digits := by
  have hlen : 0 < (Nat.toDigits 10 d.digits).length := Nat.length_toDigits_pos
  by_cases hp : 0 < d.point
  · refine ⟨(Nat.toDigits 10 d.digits).take d.point.toNat, (Nat.toDigits 10 d.digits).drop d.point.toNat, ?_, ?_,
      ?_, ?_, ?_, ?_⟩
    · simp [positional, h, hp]
    · rw [← List.length_pos_iff, List.length_take]
      omega
    · rw [← List.length_pos_iff, List.length_drop]
      unfold point at hp ⊢
      omega
    · rw [List.take_append_drop]
      exact fun c hc => isDigit_of_mem_toDigits hc
    · rw [List.length_drop]
      unfold point at hp ⊢
      omega
    · rw [List.take_append_drop, Nat.ofDigitChars_ten_toDigits]
  · refine ⟨['0'], zeros (-d.point).toNat ++ Nat.toDigits 10 d.digits, ?_, ?_, ?_, ?_, ?_, ?_⟩
    · simp [positional, h, hp]
    · exact List.cons_ne_nil _ _
    · exact fun hn => Nat.toDigits_ne_nil (List.append_eq_nil_iff.mp hn).2
    · intro c hc
      simp only [List.mem_append, List.mem_singleton] at hc
      obtain rfl | hc | hc := hc
      · decide
      · exact isDigit_of_mem_zeros hc
      · exact isDigit_of_mem_toDigits hc
    · rw [List.length_append, zeros, List.length_replicate]
      unfold point at hp ⊢
      omega
    · have hzero : ['0'] = zeros 1 := rfl
      rw [hzero, ofDigitChars_zeros, ofDigitChars_zeros, Nat.ofDigitChars_ten_toDigits]

/-- What is read has the value of the decimal that was written. -/
theorem scaled_ofText_positional (d : Decimal) (n : Nat) : (ofText d.positional).scaled n = d.scaled n := by
  by_cases he : 0 ≤ d.exponent
  · rw [positional_of_nonneg he, ofText_digits, Nat.ofDigitChars_append, Nat.ofDigitChars_ten_toDigits, zeros,
      Nat.ofDigitChars_replicate_zero]
    · rw [scaled_of_nonneg he, scaled, Int.zero_add, Int.toNat_natCast, Nat.mul_comm d.digits, Nat.pow_eq]
    · intro c hc
      exact (List.mem_append.mp hc).elim isDigit_of_mem_toDigits isDigit_of_mem_zeros
  · obtain ⟨before, behind, htext, -, -, hdigits, hlength, hvalue⟩ := exists_positional (Int.not_le.mp he)
    have hbefore : ∀ c ∈ before, c.isDigit = true := fun c hc => hdigits c (List.mem_append_left _ hc)
    rw [htext, ofText_point hbefore, hvalue, hlength, Int.neg_neg]

end Positional

section DropZeros

theorem dropZeros_spec (h : d.FitsScale n) (k : Nat) :
    (d.dropZeros k).FitsScale n ∧ (d.dropZeros k).scaled n = d.scaled n := by
  induction k generalizing d with
  | zero => exact ⟨h, rfl⟩
  | succ k ih =>
    unfold dropZeros
    split
    · next hz =>
      have hfits : (Decimal.mk (d.digits / 10) (d.exponent + 1)).FitsScale n := by
        unfold FitsScale at h ⊢
        dsimp only
        omega
      refine ⟨(ih hfits).1, (ih hfits).2.trans ?_⟩
      have hexponent : (d.exponent + 1 + n).toNat = (d.exponent + n).toNat + 1 := by
        unfold FitsScale at h
        omega
      have hdigits : d.digits / 10 * 10 = d.digits := Nat.div_mul_cancel (Nat.dvd_of_mod_eq_zero hz)
      rw [scaled, scaled, hexponent, Nat.pow_succ, Nat.mul_comm (10 ^ _), ← Nat.mul_assoc, hdigits]
    · exact ⟨h, rfl⟩

theorem le_exponent_dropZeros (k : Nat) : d.exponent ≤ (d.dropZeros k).exponent := by
  induction k generalizing d with
  | zero => exact Int.le_refl _
  | succ k ih =>
    unfold dropZeros
    split
    · have hle := ih (d := ⟨d.digits / 10, d.exponent + 1⟩)
      dsimp only at hle
      omega
    · exact Int.le_refl _

end DropZeros

end GraphQuery.Decimal
