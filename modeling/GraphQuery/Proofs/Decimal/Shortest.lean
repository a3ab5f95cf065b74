import GraphQuery.Proofs.Decimal.Reading

/-! The shortest decimal of a number. The decimals that read back as a number lie between the midpoints
around it, and numbers of different magnitude have none of them in common. The shortest decimal is one of
those of its number, and it has no places behind the point exactly if the number is whole. -/
namespace GraphQuery.Binary64

variable {x y : Binary64} {v grid : Nat} {tie : Tie}

/-- The units are 2^-1074. This constant and the next one are irreducible since nothing is gained when
their powers are written out. -/
@[irreducible]
def binaryPlaces : Nat := 1074

/-- The decimals around a number are multiples of 10^-1076. -/
@[irreducible]
def decimalPlaces : Nat := 1076

theorem binaryPlaces_eq : binaryPlaces = 1074 := by unfold binaryPlaces; rfl

theorem decimalPlaces_eq : decimalPlaces = 1076 := by unfold decimalPlaces; rfl

/-- One, in units. -/
def one : Nat := Nat.pow 2 1074

/-- One, in multiples of 10^-1076. -/
def tens : Nat := Nat.pow 10 decimalPlaces

/-- A quarter of the unit, in multiples of 10^-1076. -/
def fives : Nat := Nat.pow 5 1076

theorem one_eq : one = Nat.pow 2 binaryPlaces := by decide +kernel

theorem fives_eq : fives = Nat.pow 5 decimalPlaces := by decide +kernel

/-- A quarter of the distance to the next number above, in multiples of 10^-1076. -/
def quarter (x : Binary64) : Nat := Nat.pow 2 x.shift * fives

/-- The distance to the midpoint below, in quarters. -/
def quartersBelow (x : Binary64) : Nat := if x.significand = 4503599627370496 ∧ x.shift ≠ 0 then 1 else 2

theorem fives_pos : 0 < fives := by
  rw [fives_eq]
  exact Nat.pow_pos (by decide)

theorem quarter_pos (x : Binary64) : 0 < x.quarter := Nat.mul_pos (Nat.pow_pos (by decide)) fives_pos

theorem quartersBelow_le (x : Binary64) : x.quartersBelow ≤ 2 := by
  unfold quartersBelow
  split <;> omega

section Around

theorem around_eq (x : Binary64) : x.around = ⟨(4 * x.significand - x.quartersBelow) * x.quarter,
    4 * x.significand * x.quarter, (4 * x.significand + 2) * x.quarter, x.significand % 2 == 0⟩ := by
  rw [Nat.sub_mul, Nat.add_mul]
  unfold around quarter quartersBelow fives
  rfl

theorem around_value (x : Binary64) : x.around.value = 4 * x.significand * x.quarter := by rw [around_eq]

theorem around_high (x : Binary64) : x.around.high = (4 * x.significand + 2) * x.quarter := by rw [around_eq]

theorem around_low (x : Binary64) : x.around.low = (4 * x.significand - x.quartersBelow) * x.quarter := by
  rw [around_eq]

theorem around_closed (x : Binary64) : x.around.closed = true ↔ x.significand % 2 = 0 := by
  rw [around_eq]
  exact beq_iff_eq

theorem Around.contains_iff {a : Around} : a.contains v = true ↔
    if a.closed then a.low ≤ v ∧ v ≤ a.high else a.low < v ∧ v < a.high := by
  unfold contains
  split <;> simp

theorem Around.le_of_contains {a : Around} (h : a.contains v = true) : a.low ≤ v ∧ v ≤ a.high := by
  rw [contains_iff] at h
  split at h
  · exact h
  · exact ⟨h.1.le, h.2.le⟩

/-- A midpoint belongs only to a number that is even. -/
theorem Around.closed_of_contains {a : Around} (h : a.contains v = true) (hv : v ≤ a.low ∨ a.high ≤ v) :
    a.closed = true := by
  by_contra hc
  rw [contains_iff, if_neg hc] at h
  omega

theorem Around.contains_of_lt {a : Around} (hl : a.low < v) (hh : v < a.high) : a.contains v = true := by
  rw [contains_iff]
  split
  · exact ⟨hl.le, hh.le⟩
  · exact ⟨hl, hh⟩

theorem contains_value (x : Binary64) : x.around.contains x.around.value = true := by
  have hq := x.quarter_pos
  have hhigh : x.around.value < x.around.high := by
    rw [around_value, around_high]
    exact Nat.mul_lt_mul_of_pos_right (by omega) hq
  by_cases hs : x.significand = 0
  · have hclosed : x.around.closed = true := by rw [around_closed, hs]
    rw [Around.contains_iff, if_pos hclosed, around_low, around_value, hs]
    refine ⟨?_, ?_⟩
    · rw [Nat.mul_zero, Nat.zero_sub]
    · rw [around_high, hs]
      exact Nat.mul_le_mul_right _ (by omega)
  · refine Around.contains_of_lt ?_ hhigh
    rw [around_low, around_value]
    refine Nat.mul_lt_mul_of_pos_right ?_ hq
    have hb : 0 < x.quartersBelow := by
      unfold quartersBelow
      split <;> omega
    omega

end Around

section Disjoint

/-- The number is of less magnitude than another one. -/
def Below (x y : Binary64) : Prop := x.shift < y.shift ∨ x.shift = y.shift ∧ x.significand < y.significand

/-- The midpoint above a number does not lie above the midpoint below a greater one. Where they are the
same, one of the two numbers is odd. -/
theorem Below.gap (h : x.Below y) : ∃ a b u, x.around.high = a * u ∧ y.around.low = b * u ∧ 0 < u ∧ a ≤ b ∧
    (a = b → x.significand % 2 = 1 ∨ y.significand % 2 = 1) := by
  have hx := x.significand_lt
  have hy := y.quartersBelow_le
  obtain hshift | ⟨hshift, hsig⟩ := h
  · -- A greater shift: the significand of `y` has all its bits.
    obtain ⟨k, hk⟩ : ∃ k, y.shift = x.shift + 1 + k := ⟨_, (Nat.add_sub_cancel' hshift).symm⟩
    have hquarter : y.quarter = 2 * 2 ^ k * x.quarter := by
      simp only [quarter, hk, Nat.pow_eq]
      ring
    have hfull : 4503599627370496 ≤ y.significand := y.normal.resolve_left (by omega)
    have hlow : 18014398509481983 ≤ 4 * y.significand - y.quartersBelow := by
      unfold quartersBelow
      split <;> omega
    have hm : 1 ≤ 2 ^ k := Nat.one_le_two_pow
    have hb : 2 * (4 * y.significand - y.quartersBelow) ≤ (4 * y.significand - y.quartersBelow) * (2 * 2 ^ k) := by
      rw [Nat.mul_comm 2]
      exact Nat.mul_le_mul_left _ (by omega)
    refine ⟨4 * x.significand + 2, (4 * y.significand - y.quartersBelow) * (2 * 2 ^ k), x.quarter, x.around_high, ?_,
      x.quarter_pos, by omega, fun hab => .inl (by omega)⟩
    rw [around_low, hquarter, Nat.mul_assoc, Nat.mul_assoc, Nat.mul_assoc]
  · have hquarter : y.quarter = x.quarter := by rw [quarter, quarter, hshift]
    refine ⟨4 * x.significand + 2, 4 * y.significand - y.quartersBelow, x.quarter, x.around_high, ?_, x.quarter_pos,
      by omega, fun hab => by omega⟩
    rw [around_low, hquarter]

theorem Below.not_contains (h : x.Below y) (hx : x.around.contains v = true) : ¬ y.around.contains v = true := by
  intro hy
  obtain ⟨a, b, u, hhigh, hlow, hu, hab, hodd⟩ := h.gap
  have hle := (Around.le_of_contains hx).2
  have hge := (Around.le_of_contains hy).1
  have hmid : x.around.high ≤ y.around.low := by
    rw [hhigh, hlow]
    exact Nat.mul_le_mul_right u hab
  have heq : a = b := Nat.eq_of_mul_eq_mul_right hu (by omega)
  have hxeven := x.around_closed.mp (Around.closed_of_contains hx (.inr (by omega)))
  have hyeven := y.around_closed.mp (Around.closed_of_contains hy (.inl (by omega)))
  have := hodd heq
  omega

/-- What reads back as two numbers reads back as one magnitude. -/
theorem magnitude_eq_of_contains (hx : x.around.contains v = true) (hy : y.around.contains v = true) :
    x.significand = y.significand ∧ x.shift = y.shift := by
  have hxy : ¬ x.Below y := fun h => h.not_contains hx hy
  have hyx : ¬ y.Below x := fun h => h.not_contains hy hx
  unfold Below at hxy hyx
  omega

end Disjoint

section Search

variable {a : Around}

theorem Around.contains_of_nearestOn? {q : Nat} (h : a.nearestOn? tie grid = some q) :
    a.contains (q * grid) = true := by
  unfold nearestOn? at h
  dsimp only at h
  split at h
  · next hboth =>
    obtain ⟨hdown, hup⟩ := Bool.and_eq_true_iff.mp hboth
    split at h
    · cases h
      exact hdown
    · split at h
      · cases h
        exact hup
      · cases tie with
        | up =>
          cases h
          exact hup
        | even =>
          cases h
          obtain hmod | hmod := Nat.mod_two_eq_zero_or_one (a.value / grid)
          · rw [hmod]
            exact hdown
          · rw [hmod]
            exact hup
  · split at h
    · next hdown =>
      cases h
      exact hdown
    · split at h
      · next hup =>
        cases h
        exact hup
      · cases h

theorem Around.isSome_nearestOn? (h : a.contains (a.value / grid * grid) = true ∨
    a.contains ((a.value / grid + 1) * grid) = true) : (a.nearestOn? tie grid).isSome = true := by
  unfold nearestOn?
  dsimp only
  split
  · split
    · rfl
    · split
      · rfl
      · cases tie <;> rfl
  · next hboth =>
    split
    · rfl
    · next hdown => rw [if_pos (h.resolve_left hdown), Option.isSome_some]

/-- The search ends at a decimal that reads back. -/
theorem Around.search_spec (tie : Tie) (ha : a.contains a.value = true) (length n : Nat) :
    (a.search tie length n).FitsScale decimalPlaces ∧
      a.contains ((a.search tie length n).scaled decimalPlaces) = true := by
  induction n with
  | zero =>
    refine ⟨by simp [search, Decimal.FitsScale, decimalPlaces_eq], ?_⟩
    simpa [search, Decimal.scaled, decimalPlaces_eq] using ha
  | succ n ih =>
    unfold search
    dsimp only
    split
    · next q hq =>
      have hplace : (((length - (17 - n) : Nat) : Int) - 1076 + decimalPlaces).toNat = length - (17 - n) := by
        rw [decimalPlaces_eq]
        omega
      refine ⟨by unfold Decimal.FitsScale; rw [decimalPlaces_eq]; dsimp only; omega, ?_⟩
      rw [Decimal.scaled, hplace]
      exact contains_of_nearestOn? hq
    · exact ih

/-- A grid on which a decimal reads back bounds the exponent from below. -/
theorem Around.le_exponent_search {length m n : Nat} (hm : m < n)
    (hit : (a.nearestOn? tie (Nat.pow 10 (length - (17 - m)))).isSome = true) :
    ((length - (17 - m) : Nat) : Int) - 1076 ≤ (a.search tie length n).exponent := by
  induction n with
  | zero => omega
  | succ n ih =>
    unfold search
    dsimp only
    split
    · dsimp only
      omega
    · next hmiss =>
      refine ih (Nat.lt_of_le_of_ne (Nat.le_of_lt_succ hm) ?_)
      rintro rfl
      rw [hmiss] at hit
      cases hit

end Search

theorem shortest_spec (x : Binary64) (tie : Tie) :
    (x.shortest tie).FitsScale decimalPlaces ∧ x.around.contains ((x.shortest tie).scaled decimalPlaces) = true := by
  unfold shortest
  split
  · next hz =>
    have hs : x.significand = 0 := by simpa [isZero] using hz
    have hvalue : x.around.value = 0 := by rw [around_value, hs, Nat.mul_zero, Nat.zero_mul]
    have hcontains := x.contains_value
    rw [hvalue] at hcontains
    refine ⟨by simp [Decimal.FitsScale], ?_⟩
    rwa [Decimal.scaled, Nat.zero_mul]
  · have hsearch := Around.search_spec tie x.contains_value (Nat.toDigits 10 x.around.value).length 17
    obtain ⟨hfits, hscaled⟩ := Decimal.dropZeros_spec hsearch.1 17
    exact ⟨hfits, by rw [hscaled]; exact hsearch.2⟩

section Whole

/-- The number without its sign and its places behind the point. -/
def whole (x : Binary64) : Nat := x.units / one

/-- The number has no places behind the point. -/
def IsWhole (x : Binary64) : Prop := x.units % one = 0

instance : DecidablePred IsWhole := fun x => inferInstanceAs (Decidable (x.units % one = 0))

theorem pow_ten {m n : Nat} (h : m = n + 2) : Nat.pow 10 m = 4 * Nat.pow 2 n * Nat.pow 5 m := by
  simp only [Nat.pow_eq]
  rw [show 10 = 2 * 5 from rfl, Nat.mul_pow, h, Nat.pow_add 2]
  ring

theorem tens_eq : tens = 4 * one * fives := by
  rw [one_eq, fives_eq]
  exact pow_ten (by rw [decimalPlaces_eq, binaryPlaces_eq])

theorem pow_add_eq {b k m n : Nat} (h : n = m + k) : Nat.pow b n = Nat.pow b m * Nat.pow b k :=
  h ▸ Nat.pow_add b m k

theorem around_value_units (x : Binary64) : x.around.value = 4 * x.units * fives := by
  rw [around_value, quarter, units, ← Nat.mul_assoc, Nat.mul_assoc 4]

theorem units_of_isWhole (h : x.IsWhole) : x.units = x.whole * one :=
  (Nat.div_mul_cancel (Nat.dvd_of_mod_eq_zero h)).symm

theorem around_value_of_isWhole (h : x.IsWhole) : x.around.value = x.whole * tens := by
  rw [around_value_units, units_of_isWhole h, tens_eq]
  ring

theorem pow_dvd_units {n : Nat} (h : n ≤ x.shift) : Nat.pow 2 n ∣ x.units :=
  Dvd.dvd.mul_left (Nat.pow_dvd_pow 2 h) x.significand

/-- A whole number that reads back as a number is that number: the next ones are too close to it. -/
theorem isWhole_of_contains {t : Nat} (h : x.around.contains (t * tens) = true) : x.IsWhole := by
  obtain hlt | hge := Nat.lt_or_ge x.shift binaryPlaces
  · obtain ⟨k, hk⟩ : ∃ k, binaryPlaces = x.shift + k := Nat.exists_eq_add_of_le hlt.le
    have hone : one = Nat.pow 2 x.shift * Nat.pow 2 k := by
      rw [one_eq]
      exact pow_add_eq hk
    have htimes : t * tens = 4 * (t * Nat.pow 2 k) * x.quarter := by
      rw [tens_eq, hone, quarter]
      ring
    have hb := x.quartersBelow_le
    obtain ⟨hlow, hhigh⟩ := Around.le_of_contains h
    rw [around_low, htimes] at hlow
    rw [around_high, htimes] at hhigh
    have hlow := Nat.le_of_mul_le_mul_right hlow x.quarter_pos
    have hhigh := Nat.le_of_mul_le_mul_right hhigh x.quarter_pos
    have hsig : x.significand = t * Nat.pow 2 k := by omega
    refine Nat.mod_eq_zero_of_dvd ⟨t, ?_⟩
    rw [units, hsig, hone]
    ring
  · rw [IsWhole, one_eq]
    exact Nat.mod_eq_zero_of_dvd (pow_dvd_units hge)

/-- On a grid of 17 digits there is always a decimal that reads back. -/
theorem isSome_nearestOn?_of_le (tie : Tie) (hgrid : 0 < grid) (h : 10000000000000000 * grid ≤ x.around.value) :
    (x.around.nearestOn? tie grid).isSome = true := by
  have hsig := Nat.mul_le_mul_right x.quarter (Nat.le_of_lt_succ x.significand_lt)
  have hquarter := x.quarter_pos
  have hdiv := Nat.div_add_mod' x.around.value grid
  have hmod := Nat.mod_lt x.around.value hgrid
  have hlow : x.around.low + x.quartersBelow * x.quarter = x.around.value ∨ x.significand = 0 := by
    by_cases hs : x.significand = 0
    · exact .inr hs
    · left
      have hb := x.quartersBelow_le
      rw [around_low, around_value, ← Nat.add_mul, Nat.sub_add_cancel (by omega)]
  have hhigh : x.around.high = x.around.value + 2 * x.quarter := by rw [around_high, around_value, Nat.add_mul]
  have hvalue : x.around.value = 4 * (x.significand * x.quarter) := by rw [around_value, Nat.mul_assoc]
  have hne : x.significand ≠ 0 := by
    intro hs
    rw [hs, Nat.zero_mul] at hvalue
    omega
  have hbelow : x.quartersBelow * x.quarter = 2 * x.quarter ∨
      x.quartersBelow * x.quarter = x.quarter ∧ x.significand * x.quarter = 4503599627370496 * x.quarter := by
    unfold quartersBelow
    split
    · next hs => exact .inr ⟨Nat.one_mul _, by rw [hs.1]⟩
    · exact .inl rfl
  have hlow := hlow.resolve_right hne
  have hup : (x.around.value / grid + 1) * grid = x.around.value / grid * grid + grid := Nat.succ_mul _ _
  -- The nearest multiple is off by at most half of the grid, which is less than the way to each midpoint.
  refine Around.isSome_nearestOn? ?_
  by_cases hhalf : 2 * (x.around.value % grid) ≤ grid
  · exact .inl (Around.contains_of_lt (by omega) (by omega))
  · refine .inr (Around.contains_of_lt ?_ ?_)
    · omega
    · omega

theorem exponent_nonneg_of_isWhole (hz : x.isZero = false) (h : x.IsWhole) : 0 ≤ (x.shortest tie).exponent := by
  have hsig : x.significand ≠ 0 := by simpa [isZero] using hz
  have hvalue := around_value_of_isWhole h
  have hpos : 0 < x.whole := by
    refine Nat.pos_of_ne_zero fun hw => ?_
    rw [hw, Nat.zero_mul, around_value] at hvalue
    have := Nat.mul_pos (Nat.mul_pos (by decide : 0 < 4) (Nat.pos_of_ne_zero hsig)) x.quarter_pos
    omega
  have hlength : ∀ k, 0 < k → ((Nat.toDigits 10 x.around.value).length ≤ k ↔ x.around.value < Nat.pow 10 k) :=
    fun k hk => Nat.length_toDigits_le_iff (by decide) hk
  rw [shortest, if_neg (by simp [hz])]
  refine Int.le_trans ?_ (Decimal.le_exponent_dropZeros 17)
  generalize (Nat.toDigits 10 x.around.value).length = length at hlength ⊢
  have hlong : decimalPlaces < length := by
    refine Nat.not_le.mp fun hle => ?_
    have hlt := (hlength decimalPlaces (by rw [decimalPlaces_eq]; decide)).mp hle
    rw [hvalue] at hlt
    exact absurd hlt (Nat.not_lt.mpr (Nat.le_mul_of_pos_left _ hpos))
  have hplaces := decimalPlaces_eq
  by_cases hshort : length ≤ 1093
  · have hplace : length - (17 - (1093 - length)) = decimalPlaces := by omega
    have hexact : x.around.value / tens * tens = x.around.value :=
      Nat.div_mul_cancel ⟨x.whole, by rw [hvalue, Nat.mul_comm]⟩
    have hit : (x.around.nearestOn? tie tens).isSome = true :=
      Around.isSome_nearestOn? (.inl (by rw [hexact]; exact x.contains_value))
    rw [tens, ← hplace] at hit
    have hle := Around.le_exponent_search (by omega : 1093 - length < 17) hit
    omega
  · have hge : ¬ x.around.value < Nat.pow 10 (length - 1) := fun hlt =>
      absurd ((hlength (length - 1) (by omega)).mpr hlt) (by omega)
    have hsplit : Nat.pow 10 (length - 1) = 10000000000000000 * Nat.pow 10 (length - (17 - 0)) :=
      pow_add_eq (by omega : length - 1 = 16 + (length - (17 - 0)))
    rw [hsplit] at hge
    have hit := isSome_nearestOn?_of_le tie (Nat.pow_pos (by decide)) (Nat.not_lt.mp hge)
    have hle := Around.le_exponent_search (by decide : 0 < 17) hit
    omega

/-- The shortest decimal of a number other than zero has places behind the point unless the number is whole. -/
theorem exponent_nonneg_iff (hz : x.isZero = false) : 0 ≤ (x.shortest tie).exponent ↔ x.IsWhole := by
  refine ⟨fun he => ?_, exponent_nonneg_of_isWhole hz⟩
  have hcontains := (x.shortest_spec tie).2
  rw [Decimal.scaled_of_nonneg he] at hcontains
  exact isWhole_of_contains hcontains

end Whole

end GraphQuery.Binary64
