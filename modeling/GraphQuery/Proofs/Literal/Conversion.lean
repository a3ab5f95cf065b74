import GraphQuery.Literal
import GraphQuery.Proofs.Decimal.Shortest
import GraphQuery.Proofs.Outcome

/-! Literals of JSON values. An object has none, wherever it stands in an array. Every other value has a
literal that is the same value, unless it holds a whole number of 2^63 or more: that becomes the nearest
float. -/
namespace GraphQuery

/-- The number is an integer of 64 bits with a sign. -/
def WideInt.Fits (n : WideInt) : Prop := n.value < 9223372036854775808

instance : DecidablePred WideInt.Fits := fun n => inferInstanceAs (Decidable (n.value < 9223372036854775808))

namespace Json

mutual

/-- The value is an object or an array with an object in it, at any depth. -/
def hasObject : Json → Bool
  | .object _ => true
  | .array items => anyObject items
  | .null | .bool _ | .integer _ | .float _ | .string _ => false

def anyObject : List Json → Bool
  | [] => false
  | v :: rest => v.hasObject || anyObject rest

/-- The whole numbers of a value, those in arrays included. -/
def integers : Json → List WideInt
  | .integer n => [n]
  | .array items => integersOfAll items
  | .null | .bool _ | .float _ | .string _ | .object _ => []

def integersOfAll : List Json → List WideInt
  | [] => []
  | v :: rest => v.integers ++ integersOfAll rest

end

end Json

namespace Binary64

theorem divNearest_mul {n d c : Nat} (hc : 0 < c) : divNearest (n * c) (d * c) = divNearest n d := by
  have hless : ∀ a b, a * c < b * c ↔ a < b := fun a b => Nat.mul_lt_mul_right hc
  unfold divNearest
  simp only [Nat.mul_div_mul_right _ _ hc, Nat.mul_mod_mul_right, ← Nat.mul_assoc, hless]

theorem divNearest_bounds (n d : Nat) : n / d ≤ divNearest n d ∧ divNearest n d ≤ n / d + 1 := by
  unfold divNearest
  dsimp only
  have hmod := Nat.mod_lt (n / d) (by decide : 0 < 2)
  split
  · omega
  · split <;> omega

theorem log2_mul_pow {n k : Nat} (hn : n ≠ 0) (h : n.log2 = k) (p : Nat) : (n * Nat.pow 2 p).log2 = k + p := by
  obtain ⟨hlow, hhigh⟩ := (Nat.log2_eq_iff hn).mp h
  have hpow : 0 < 2 ^ p := Nat.two_pow_pos p
  rw [Nat.pow_eq, Nat.log2_eq_iff (Nat.mul_ne_zero hn hpow.ne')]
  refine ⟨?_, ?_⟩
  · rw [Nat.pow_add]
    exact Nat.mul_le_mul_right _ hlow
  · rw [Nat.add_right_comm, Nat.pow_add]
    exact Nat.mul_lt_mul_of_pos_right hhigh hpow

theorem ofRatio?_one (n : Nat) : ofRatio? false n 1 =
    if divNearest (n * one) (Nat.pow 2 ((n * one).log2 - 52)) < 9007199254740992 then
      ofParts? false (divNearest (n * one) (Nat.pow 2 ((n * one).log2 - 52))) ((n * one).log2 - 52)
    else ofParts? false 4503599627370496 ((n * one).log2 - 52 + 1) := by
  unfold ofRatio? one
  simp only [Nat.div_one, Nat.one_mul]

/-- From 2^63 on a whole number is rounded to a multiple of 2048, a half to an even one. -/
theorem exists_ofRatio?_of_le {n : Nat} (hlow : 9223372036854775808 ≤ n) (hhigh : n < 18446744073709551616) :
    ∃ x, ofRatio? false n 1 = some x ∧ x.negative = false ∧ x.units = divNearest n 2048 * 2048 * one := by
  have hlog : n.log2 = 63 := (Nat.log2_eq_iff (by omega)).mpr ⟨hlow, hhigh⟩
  have hshift : (n * one).log2 - 52 = binaryPlaces + 11 := by
    rw [one_eq, log2_mul_pow (by omega) hlog]
    omega
  have hpow : Nat.pow 2 (binaryPlaces + 11) = 2048 * one := by
    rw [one_eq, Nat.mul_comm]
    exact pow_add_eq rfl
  have hone : 0 < one := by
    rw [one_eq]
    exact Nat.two_pow_pos _
  have hplaces := binaryPlaces_eq
  obtain ⟨hdown, hup⟩ := divNearest_bounds n 2048
  rw [ofRatio?_one, hshift, hpow, divNearest_mul hone]
  split
  · next hlt =>
    have hparts : divNearest n 2048 < 9007199254740992 ∧ binaryPlaces + 11 ≤ 2045 ∧
        (binaryPlaces + 11 = 0 ∨ 4503599627370496 ≤ divNearest n 2048) := by omega
    refine ⟨_, dif_pos hparts, rfl, ?_⟩
    rw [units, hpow, Nat.mul_assoc]
  · next hge =>
    have hmax : divNearest n 2048 = 9007199254740992 := by omega
    have hparts : 4503599627370496 < 9007199254740992 ∧ binaryPlaces + 11 + 1 ≤ 2045 ∧
        (binaryPlaces + 11 + 1 = 0 ∨ 4503599627370496 ≤ 4503599627370496) := by omega
    refine ⟨_, dif_pos hparts, rfl, ?_⟩
    have htwice : Nat.pow 2 (binaryPlaces + 11 + 1) = 2 * (2048 * one) := by
      rw [← hpow, Nat.mul_comm]
      exact pow_add_eq rfl
    rw [units, htwice, hmax]
    show 4503599627370496 * (2 * (2048 * one)) = 9007199254740992 * 2048 * one
    omega

end Binary64

namespace Literal

mutual

/-- The literal is the value: of the same kind, with the same content in the same order. What a literal has to
be to stand for a whole number is a parameter. -/
inductive Denotes (whole : Literal → WideInt → Prop) : Literal → Json → Prop
  | null : Denotes whole .null .null
  | boolean (b : Bool) : Denotes whole (.boolean b) (.bool b)
  | integer {l : Literal} {n : WideInt} (value : whole l n) : Denotes whole l (.integer n)
  | float (x : Binary64) : Denotes whole (.float x) (.float x)
  | string (s : String) : Denotes whole (.string s) (.string s)
  | list {ls : List Literal} {vs : List Json} (items : AllDenote whole ls vs) :
      Denotes whole (.list ls) (.array vs)

inductive AllDenote (whole : Literal → WideInt → Prop) : List Literal → List Json → Prop
  | nil : AllDenote whole [] []
  | cons {l : Literal} {v : Json} {ls : List Literal} {vs : List Json} (first : Denotes whole l v)
      (others : AllDenote whole ls vs) : AllDenote whole (l :: ls) (v :: vs)

end

theorem denotes_list_iff {whole : Literal → WideInt → Prop} {ls : List Literal} {vs : List Json} :
    Denotes whole (.list ls) (.array vs) ↔ AllDenote whole ls vs :=
  ⟨fun h => by cases h with | list items => exact items, .list⟩

theorem allDenote_cons_iff {whole : Literal → WideInt → Prop} {l : Literal} {v : Json} {ls : List Literal}
    {vs : List Json} : AllDenote whole (l :: ls) (v :: vs) ↔ Denotes whole l v ∧ AllDenote whole ls vs :=
  ⟨fun h => by cases h with | cons first others => exact ⟨first, others⟩, fun h => .cons h.1 h.2⟩

/-- The literal is the integer. -/
def IsInteger (l : Literal) (n : WideInt) : Prop := ∃ i : Int64, l = .integer i ∧ i.toInt = n.value

/-- The literal is the float next to a whole number that does not fit. Such floats are 2048 apart, and a
number half way goes to the even multiple. -/
def IsRounded (l : Literal) (n : WideInt) : Prop :=
  ¬ n.Fits ∧ ∃ x : Binary64, l = .float x ∧ x.negative = false ∧
    x.units = Binary64.divNearest n.value.toNat 2048 * 2048 * Binary64.one

theorem ofWideInt_of_fits {n : WideInt} (h : n.Fits) : ∃ l, ofWideInt n = .ok l ∧ IsInteger l n :=
  ⟨_, if_pos h, _, rfl, Int64.toInt_ofInt_of_le n.lower h⟩

theorem ofWideInt_eq_float {n : WideInt} (h : ¬ n.Fits) {x : Binary64}
    (hx : Binary64.ofRatio? false n.value.toNat 1 = some x) : ofWideInt n = .ok (.float x) := by
  rw [ofWideInt, if_neg (show ¬ n.value < 9223372036854775808 from h), hx]

theorem ofWideInt_of_not_fits {n : WideInt} (h : ¬ n.Fits) : ∃ l, ofWideInt n = .ok l ∧ IsRounded l n := by
  have hlow : 9223372036854775808 ≤ n.value := Int.not_lt.mp h
  have hhigh := n.upper
  obtain ⟨x, hx, hsign, hunits⟩ := Binary64.exists_ofRatio?_of_le (n := n.value.toNat) (by omega) (by omega)
  exact ⟨.float x, ofWideInt_eq_float h hx, h, x, rfl, hsign, hunits⟩

theorem IsRounded.not_isInteger {l : Literal} {n : WideInt} (h : IsRounded l n) : ¬ IsInteger l n := by
  obtain ⟨-, x, rfl, -⟩ := h
  exact nofun

theorem ofJsonItems_cons (v : Json) (vs : List Json) : ofJsonItems (v :: vs) =
    (ofJson v).bind fun l => (ofJsonItems vs).bind fun ls => .ok (l :: ls) := rfl

/-- The value as it is, but for whole numbers that do not fit. -/
abbrev DenotesRounded : Literal → Json → Prop := Denotes fun l n => IsInteger l n ∨ IsRounded l n

/-- What the conversion can come to. -/
inductive Converts (v : Json) : Except ArgumentError Literal → Prop
  | refused (object : v.hasObject = true) : Converts v (.error (.literalUnsupported "map"))
  | converted {l : Literal} (object : v.hasObject = false) (value : DenotesRounded l v)
      (exact : Denotes IsInteger l v ↔ ∀ n ∈ v.integers, n.Fits) : Converts v (.ok l)

inductive ConvertsAll (vs : List Json) : Except ArgumentError (List Literal) → Prop
  | refused (object : Json.anyObject vs = true) : ConvertsAll vs (.error (.literalUnsupported "map"))
  | converted {ls : List Literal} (object : Json.anyObject vs = false)
      (value : AllDenote (fun l n => IsInteger l n ∨ IsRounded l n) ls vs)
      (exact : AllDenote IsInteger ls vs ↔ ∀ n ∈ Json.integersOfAll vs, n.Fits) : ConvertsAll vs (.ok ls)

theorem converts_integer (n : WideInt) : Converts (.integer n) (ofWideInt n) := by
  by_cases h : n.Fits
  · obtain ⟨l, hl, hvalue⟩ := ofWideInt_of_fits h
    rw [hl]
    exact .converted rfl (.integer (.inl hvalue))
      ⟨fun _ m hm => List.mem_singleton.mp hm ▸ h, fun _ => .integer hvalue⟩
  · obtain ⟨l, hl, hvalue⟩ := ofWideInt_of_not_fits h
    rw [hl]
    refine .converted rfl (.integer (.inr hvalue))
      ⟨fun hexact => ?_, fun hfits => absurd (hfits n List.mem_cons_self) h⟩
    cases hexact with
    | integer hinteger => exact absurd hinteger hvalue.not_isInteger

mutual

theorem converts (v : Json) : Converts v (ofJson v) := by
  match v with
  | .null => exact .converted rfl .null ⟨fun _ _ h => absurd h List.not_mem_nil, fun _ => .null⟩
  | .bool b => exact .converted rfl (.boolean b) ⟨fun _ _ h => absurd h List.not_mem_nil, fun _ => .boolean b⟩
  | .float x => exact .converted rfl (.float x) ⟨fun _ _ h => absurd h List.not_mem_nil, fun _ => .float x⟩
  | .string s => exact .converted rfl (.string s) ⟨fun _ _ h => absurd h List.not_mem_nil, fun _ => .string s⟩
  | .object entries => exact .refused rfl
  | .integer n => exact converts_integer n
  | .array vs =>
    rw [ofJson]
    generalize hr : ofJsonItems vs = result
    have hall := convertsAll vs
    rw [hr] at hall
    cases hall with
    | refused hobject => exact .refused hobject
    | converted hobject hvalue hexact =>
      exact .converted hobject (.list hvalue) (denotes_list_iff.trans hexact)
termination_by structural v

theorem convertsAll (vs : List Json) : ConvertsAll vs (ofJsonItems vs) := by
  match vs with
  | [] => exact .converted rfl .nil ⟨fun _ _ h => absurd h List.not_mem_nil, fun _ => .nil⟩
  | v :: vs =>
    rw [ofJsonItems_cons]
    generalize hr : ofJson v = result
    have hfirst := converts v
    rw [hr] at hfirst
    cases hfirst with
    | refused hobject => exact .refused (by rw [Json.anyObject, hobject, Bool.true_or])
    | converted hobject hvalue hexact =>
      generalize hr' : ofJsonItems vs = results
      have hothers := convertsAll vs
      rw [hr'] at hothers
      cases hothers with
      | refused hobjects => exact .refused (by rw [Json.anyObject, hobjects, Bool.or_true])
      | converted hobjects hvalues hexacts =>
        refine .converted (by rw [Json.anyObject, hobject, hobjects, Bool.or_false]) (.cons hvalue hvalues) ?_
        rw [allDenote_cons_iff, hexact, hexacts, Json.integersOfAll, List.forall_mem_append]
termination_by structural vs

end

/-- The conversion fails at an object and nowhere else. The literal of any other value is that value, whole
numbers that do not fit being rounded; so it is exactly the value if and only if all its whole numbers fit. -/
theorem ofJson_denotes (v : Json) :
    (∀ e, ofJson v = .error e ↔ v.hasObject = true ∧ e = .literalUnsupported "map") ∧
      (ArgumentError.literalUnsupported "map").message = "Unsupported literal type: map" ∧
      (v.hasObject = false → ∃ l, ofJson v = .ok l ∧
        Denotes (fun l n => IsInteger l n ∨ IsRounded l n) l v ∧
        (Denotes IsInteger l v ↔ ∀ n ∈ v.integers, n.Fits)) := by
  generalize hr : ofJson v = result
  have hv := converts v
  rw [hr] at hv
  cases hv with
  | refused hobject =>
    refine ⟨fun e => ⟨fun h => ⟨hobject, ?_⟩, fun h => by rw [h.2]⟩, by decide, fun h => ?_⟩
    · cases h
      rfl
    · rw [hobject] at h
      cases h
  | converted hobject hvalue hexact =>
    refine ⟨fun e => ⟨nofun, fun h => ?_⟩, by decide, fun _ => ⟨_, rfl, hvalue, hexact⟩⟩
    rw [hobject] at h
    cases h.1

/-- A nested array with the outermost integers that fit. -/
theorem ofJson_denotes_nested : ∃ l,
    ofJson (.array [.integer ⟨-9223372036854775808, by decide, by decide⟩,
      .array [.null, .integer ⟨9223372036854775807, by decide, by decide⟩]]) = .ok l ∧
    Denotes IsInteger l (.array [.integer ⟨-9223372036854775808, by decide, by decide⟩,
      .array [.null, .integer ⟨9223372036854775807, by decide, by decide⟩]]) := by
  obtain ⟨l, hl, -, hexact⟩ := (ofJson_denotes (.array [.integer ⟨-9223372036854775808, by decide, by decide⟩,
    .array [.null, .integer ⟨9223372036854775807, by decide, by decide⟩]])).2.2 (by decide)
  exact ⟨l, hl, hexact.mpr (by decide)⟩

/-- One above 2^63 becomes the float 2^63. -/
theorem ofJson_wide_integer :
    ofJson (.integer ⟨9223372036854775809, by decide, by decide⟩) =
        .ok (.float ⟨false, 4503599627370496, 1085, by decide, by decide, by decide⟩) ∧
      ¬ Denotes IsInteger (.float ⟨false, 4503599627370496, 1085, by decide, by decide, by decide⟩)
        (.integer ⟨9223372036854775809, by decide, by decide⟩) := by
  refine ⟨?_, fun h => ?_⟩
  · rw [ofJson]
    have hratio : Binary64.ofRatio? false 9223372036854775809 1 =
        some ⟨false, 4503599627370496, 1085, by decide, by decide, by decide⟩ := by decide +kernel
    exact ofWideInt_eq_float (by decide) hratio
  cases h with
  | integer hinteger =>
    obtain ⟨i, hi, -⟩ := hinteger
    cases hi

end Literal
end GraphQuery
