import GraphQuery.Parameter.Names
import Mathlib.Data.Nat.Nth

/-! Generated names. The next name of a source is the first free one from its counter on: among one
more indices than there are taken names one is free, since different indices have different names. -/
namespace GraphQuery.NameSource

theorem toString_injective {i j : Nat} (h : toString i = toString j) : i = j := by
  have hd : Nat.toDigits 10 i = Nat.toDigits 10 j := by
    have hl := congrArg String.toList h
    rwa [Nat.toString_eq_repr, Nat.toString_eq_repr, Nat.toList_repr, Nat.toList_repr] at hl
  rw [← Nat.ofDigitChars_ten_toDigits (n := i), hd, Nat.ofDigitChars_ten_toDigits]

theorem append_toString_injective {stem : String} {i j : Nat}
    (h : stem ++ toString i = stem ++ toString j) : i = j :=
  toString_injective ((String.append_right_inj stem).mp h)

theorem nameAt_injective (s : NameSource) {i j : Nat} (h : s.nameAt i = s.nameAt j) : i = j :=
  append_toString_injective h

/-- The first free index from the counter on. -/
structure IsNext (s : NameSource) (index : Nat) : Prop where
  counter_le : s.counter ≤ index
  free : s.nameAt index ∉ s.taken
  taken : ∀ j, s.counter ≤ j → j < index → s.nameAt j ∈ s.taken

section Search

variable (s : NameSource) (index tries : Nat)

theorem le_freeFrom : index ≤ s.freeFrom index tries := by
  induction tries generalizing index with
  | zero => exact Nat.le_refl index
  | succ tries ih =>
    unfold freeFrom
    split
    · have := ih (index + 1)
      omega
    · exact Nat.le_refl index

theorem taken_of_lt_freeFrom {j : Nat} (hi : index ≤ j) (hj : j < s.freeFrom index tries) :
    s.nameAt j ∈ s.taken := by
  induction tries generalizing index with
  | zero =>
    change j < index at hj
    omega
  | succ tries ih =>
    unfold freeFrom at hj
    split at hj
    · next ht =>
      by_cases hij : j = index
      · rwa [hij]
      · exact ih (index + 1) (by omega) hj
    · omega

/-- The search ends at a free index or has used up its tries. -/
theorem freeFrom_free_or_eq : s.nameAt (s.freeFrom index tries) ∉ s.taken ∨
    s.freeFrom index tries = index + tries := by
  induction tries generalizing index with
  | zero => exact .inr rfl
  | succ tries ih =>
    unfold freeFrom
    split
    · have := ih (index + 1)
      rwa [Nat.add_right_comm, Nat.add_assoc] at this
    · next ht => exact .inl ht

/-- As many tries as there are taken names are enough. -/
theorem freeFrom_free : s.nameAt (s.freeFrom index s.taken.length) ∉ s.taken := by
  obtain h | h := s.freeFrom_free_or_eq index s.taken.length
  · exact h
  · intro ht
    let names := (List.range' index (s.taken.length + 1)).map s.nameAt
    have hnodup : names.Nodup := List.Pairwise.map _ (fun i j hij he => hij (s.nameAt_injective he))
      List.nodup_range'
    have hsub : names ⊆ s.taken := by
      intro name hname
      obtain ⟨j, hj, rfl⟩ := List.mem_map.mp hname
      rw [List.mem_range'_1] at hj
      by_cases hlast : j = index + s.taken.length
      · rwa [hlast, ← h]
      · exact s.taken_of_lt_freeFrom index s.taken.length hj.1 (by omega)
    have hlength := hnodup.length_le_of_subset hsub
    simp only [names, List.length_map, List.length_range'] at hlength
    omega

end Search

/-- The next name is that of the first free index, and it is taken from then on. -/
theorem exists_next (s : NameSource) :
    ∃ i, s.IsNext i ∧ s.next = (s.nameAt i, ⟨s.stem, i + 1, s.nameAt i :: s.taken⟩) :=
  ⟨_, ⟨s.le_freeFrom _ _, s.freeFrom_free _, fun _ => s.taken_of_lt_freeFrom _ _⟩, rfl⟩

section Reserved

/-- The index makes a name that is none of the reserved ones. -/
def IsFree (stem : String) (reserved : List String) (index : Nat) : Prop :=
  stem ++ toString index ∉ reserved

variable (stem : String) (reserved : List String)

instance : DecidablePred (IsFree stem reserved) := fun index =>
  inferInstanceAs (Decidable (stem ++ toString index ∉ reserved))

/-- The k-th index, from zero on, whose name is free. -/
noncomputable def freeIndex (k : Nat) : Nat := Nat.nth (IsFree stem reserved) k

theorem infinite_isFree : (Set.ofPred (IsFree stem reserved)).Infinite := by
  refine Set.infinite_of_forall_exists_gt fun a => ?_
  let s : NameSource := ⟨stem, 0, reserved⟩
  exact ⟨s.freeFrom (a + 1) reserved.length, s.freeFrom_free (a + 1), s.le_freeFrom (a + 1) _⟩

theorem isFree_freeIndex (k : Nat) : IsFree stem reserved (freeIndex stem reserved k) :=
  Nat.nth_mem_of_infinite (infinite_isFree stem reserved) k

theorem freeIndex_injective {k l : Nat} (h : freeIndex stem reserved k = freeIndex stem reserved l) : k = l :=
  Nat.nth_injective (infinite_isFree stem reserved) h

/-- A free index with `k` free ones below the counter and none between the counter and itself is the
k-th. -/
theorem eq_freeIndex {k counter index : Nat} (hk : Nat.count (IsFree stem reserved) counter = k)
    (hle : counter ≤ index) (hfree : IsFree stem reserved index)
    (hnone : ∀ j, counter ≤ j → j < index → ¬ IsFree stem reserved j) :
    index = freeIndex stem reserved k ∧ Nat.count (IsFree stem reserved) (index + 1) = k + 1 := by
  have hcount : Nat.count (IsFree stem reserved) index = k := by
    rw [← hk]
    clear hfree
    induction index, hle using Nat.le_induction with
    | base => rfl
    | succ i hi ih =>
      rw [Nat.count_succ, if_neg (hnone i hi (Nat.lt_succ_self i)), Nat.add_zero]
      exact ih fun j hj hji => hnone j hj (by omega)
  refine ⟨?_, ?_⟩
  · rw [freeIndex, ← hcount, Nat.nth_count hfree]
  · rw [Nat.count_succ, hcount, if_pos hfree]

end Reserved

end GraphQuery.NameSource
