import GraphQuery.Proofs.Parameter.Names
import GraphQuery.Proofs.Text.Characters
import Mathlib.Order.Bounds.Basic

/-! Names generated in any run of calls. Names may be reserved before, between and behind the names that
are asked for, ahead of the counter or below it. -/
namespace GraphQuery

namespace Text

theorem isNamePart_of_isDigit {c : Char} (h : c.isDigit = true) : isNamePart c = true := by
  have hdigits : ∀ n < 58, 48 ≤ n → isNamePart (Char.ofNat n) = true := by decide +kernel
  simp only [Char.isDigit, Bool.and_eq_true, decide_eq_true_eq] at h
  rw [← Char.ofNat_toNat c]
  exact hdigits c.toNat (Nat.lt_succ_of_le h.2) h.1

/-- A number behind an identifier makes an identifier. -/
theorem isIdentifier_append_toString {stem : String} (h : isIdentifier stem = true) (n : Nat) :
    isIdentifier (stem ++ toString n) = true := by
  unfold isIdentifier at h ⊢
  rw [String.toList_append]
  split at h
  · exact absurd h Bool.false_ne_true
  · next c rest hstem =>
    rw [Bool.and_eq_true] at h
    have hdigits : (toString n).toList.all isNamePart = true := by
      rw [toList_toString]
      exact List.all_eq_true.mpr fun d hd =>
        isNamePart_of_isDigit (Nat.isDigit_of_mem_toDigits (by decide) (by decide) hd)
    rw [hstem]
    simp only [List.cons_append, List.all_append, h.1, h.2, hdigits, Bool.and_self]

end Text

namespace NameSource

section Search

variable {s : NameSource} {i j : Nat}

/-- The passes of a search that has no bound: it goes on from a name that is taken to the next one, and
ends at a name that is free. -/
inductive Search (s : NameSource) : Nat → Nat → Prop
  | free {i : Nat} (h : s.nameAt i ∉ s.taken) : Search s i i
  | taken {i j : Nat} (h : s.nameAt i ∈ s.taken) (rest : Search s (i + 1) j) : Search s i j

/-- A search ends at one index at most. -/
theorem Search.unique (h : s.Search i j) {k : Nat} (h' : s.Search i k) : j = k := by
  induction h with
  | free hfree =>
    cases h' with
    | free => rfl
    | taken htaken => exact absurd htaken hfree
  | taken htaken _ ih =>
    cases h' with
    | free hfree => exact absurd htaken hfree
    | taken _ rest => exact ih rest

/-- Behind taken names the search ends at the first free one. -/
theorem search_of_free (hle : i ≤ j) (hfree : s.nameAt j ∉ s.taken)
    (htaken : ∀ k, i ≤ k → k < j → s.nameAt k ∈ s.taken) : s.Search i j := by
  induction hle using Nat.decreasingInduction with
  | self => exact .free hfree
  | of_succ k hk ih => exact .taken (htaken k le_rfl hk) (ih fun l hl => htaken l (by omega))

theorem IsNext.search_iff (h : s.IsNext i) : s.Search s.counter j ↔ j = i := by
  have hsearch := search_of_free h.counter_le h.free h.taken
  exact ⟨fun hj => hj.unique hsearch, fun hj => hj ▸ hsearch⟩

end Search

/-- A call to a source: to reserve a name, or to give the next one. -/
inductive Call where
  | reserve (name : String)
  | next
  deriving DecidableEq, Repr

def perform (s : NameSource) : Call → NameSource
  | .reserve name => s.reserve name
  | .next => s.next.2

def run (s : NameSource) (calls : List Call) : NameSource := calls.foldl perform s

def Call.reserved? : Call → Option String
  | .reserve name => some name
  | .next => none

/-- The names that the calls reserve. -/
def reserved (calls : List Call) : List String := calls.filterMap Call.reserved?

/-- The names that the calls give, in order. -/
def generated (s : NameSource) : List Call → List String
  | [] => []
  | .reserve name :: rest => generated (s.reserve name) rest
  | .next :: rest => s.next.1 :: generated s.next.2 rest

theorem generated_append (s : NameSource) (calls more : List Call) :
    s.generated (calls ++ more) = s.generated calls ++ (s.run calls).generated more := by
  induction calls generalizing s with
  | nil => rfl
  | cons call calls ih =>
    cases call with
    | reserve name => exact ih (s.reserve name)
    | next => exact congrArg (s.next.1 :: ·) (ih s.next.2)

theorem run_concat (s : NameSource) (calls : List Call) (call : Call) :
    s.run (calls ++ [call]) = (s.run calls).perform call := by
  simp [run]

/-- A source behind calls that began with a new one. The indices are those of the generated names. -/
structure History (stem : String) (calls : List Call) (indices : List Nat) (s : NameSource) : Prop where
  stem_eq : s.stem = stem
  generated_eq : (new stem).generated calls = indices.map fun i => stem ++ toString i
  increasing : indices.Pairwise (· < ·)
  below : ∀ i ∈ indices, i < s.counter
  mem_taken : ∀ name, name ∈ s.taken ↔ name ∈ reserved calls ++ (new stem).generated calls
  /-- The counter has passed over taken names only. -/
  passed : ∀ i < s.counter, stem ++ toString i ∈ s.taken
  length_taken : s.taken.length = calls.length

section History

variable {stem : String} {calls : List Call} {indices : List Nat} {s : NameSource}

theorem History.start (stem : String) : History stem [] [] (new stem) where
  stem_eq := rfl
  generated_eq := rfl
  increasing := List.Pairwise.nil
  below _ hi := absurd hi List.not_mem_nil
  mem_taken _ := Iff.rfl
  passed i hi := absurd hi (Nat.not_lt_zero i)
  length_taken := rfl

theorem History.reserve (h : History stem calls indices s) (name : String) :
    History stem (calls ++ [.reserve name]) indices (s.reserve name) := by
  have hgenerated : (new stem).generated (calls ++ [.reserve name]) = (new stem).generated calls := by
    rw [generated_append]
    exact List.append_nil _
  refine ⟨h.stem_eq, hgenerated.trans h.generated_eq, h.increasing, h.below, fun other => ?_,
    fun i hi => List.mem_cons_of_mem _ (h.passed i hi), ?_⟩
  · have hreserved : reserved (calls ++ [.reserve name]) = reserved calls ++ [name] := by
      simp [reserved, Call.reserved?]
    rw [hgenerated, hreserved, taken_reserve, List.mem_cons, h.mem_taken]
    simp only [List.mem_append, List.mem_singleton]
    tauto
  · rw [taken_reserve, List.length_cons, h.length_taken, List.length_append, List.length_singleton]

theorem History.nameAt (h : History stem calls indices s) (i : Nat) : s.nameAt i = stem ++ toString i := by
  rw [NameSource.nameAt, h.stem_eq]

theorem History.next (h : History stem calls indices s) (hs : s = (new stem).run calls) {i : Nat}
    (hi : s.IsNext i) (hnext : s.next = (s.nameAt i, ⟨s.stem, i + 1, s.nameAt i :: s.taken⟩)) :
    History stem (calls ++ [.next]) (indices ++ [i]) s.next.2 := by
  have hgenerated : (new stem).generated (calls ++ [.next]) =
      (new stem).generated calls ++ [stem ++ toString i] := by
    rw [generated_append, ← hs, ← h.nameAt]
    exact congrArg (fun given => (new stem).generated calls ++ [given.1]) hnext
  have htaken : s.next.2.taken = (stem ++ toString i) :: s.taken := by rw [hnext, h.nameAt]
  have hcounter : s.next.2.counter = i + 1 := by rw [hnext]
  refine ⟨h.stem_eq, ?_, ?_, ?_, fun name => ?_, fun j hj => ?_, ?_⟩
  · rw [hgenerated, h.generated_eq, List.map_append, List.map_singleton]
  · refine List.pairwise_append.mpr ⟨h.increasing, List.pairwise_singleton _ _, fun j hj k hk => ?_⟩
    rw [List.mem_singleton.mp hk]
    exact lt_of_lt_of_le (h.below j hj) hi.counter_le
  · intro j hj
    rw [hcounter]
    obtain hj | hj := List.mem_append.mp hj
    · exact Nat.lt_succ_of_lt (lt_of_lt_of_le (h.below j hj) hi.counter_le)
    · exact List.mem_singleton.mp hj ▸ Nat.lt_succ_self i
  · have hreserved : reserved (calls ++ [.next]) = reserved calls := by
      simp [reserved, Call.reserved?]
    rw [htaken, hgenerated, hreserved, List.mem_cons, h.mem_taken]
    simp only [List.mem_append, List.mem_singleton]
    tauto
  · rw [htaken]
    rw [hcounter] at hj
    by_cases hij : j = i
    · exact hij ▸ List.mem_cons_self
    · refine List.mem_cons_of_mem _ ?_
      -- Below the old counter the index was passed before, and from there on the search has passed it.
      by_cases hlt : j < s.counter
      · exact h.passed j hlt
      · exact h.nameAt j ▸ hi.taken j (by omega) (by omega)
  · rw [htaken, List.length_cons, h.length_taken, List.length_append, List.length_singleton]

/-- The next index is the least one that is left and has a name neither reserved nor generated. -/
theorem History.isLeast (h : History stem calls indices s) {i : Nat} (hi : s.IsNext i) :
    IsLeast {j | s.counter ≤ j ∧ stem ++ toString j ∉ reserved calls ++ (new stem).generated calls} i := by
  simp only [← h.mem_taken, ← h.nameAt]
  refine ⟨⟨hi.counter_le, hi.free⟩, fun j hj => ?_⟩
  by_contra hlt
  exact hj.2 (hi.taken j hj.1 (Nat.lt_of_not_le hlt))

/-- From the counter on, only a reservation makes a name taken. -/
theorem History.mem_reserved (h : History stem calls indices s) {j : Nat} (hj : s.counter ≤ j)
    (htaken : s.nameAt j ∈ s.taken) : stem ++ toString j ∈ reserved calls := by
  rw [h.nameAt, h.mem_taken] at htaken
  obtain hreserved | hgenerated := List.mem_append.mp htaken
  · exact hreserved
  · rw [h.generated_eq] at hgenerated
    obtain ⟨i, hi, hij⟩ := List.mem_map.mp hgenerated
    have hlt := h.below i hi
    rw [append_toString_injective hij] at hlt
    exact absurd hlt (Nat.not_lt_of_le hj)

/-- The counter has not gone further than there were calls: each index below it has a taken name. -/
theorem History.counter_le (h : History stem calls indices s) : s.counter ≤ calls.length := by
  have hnodup : ((List.range s.counter).map fun i => stem ++ toString i).Nodup :=
    List.Pairwise.map _ (fun i j hij he => hij (append_toString_injective he)) List.nodup_range
  have hsub : ((List.range s.counter).map fun i => stem ++ toString i) ⊆ s.taken := by
    intro name hname
    obtain ⟨i, hi, rfl⟩ := List.mem_map.mp hname
    exact h.passed i (List.mem_range.mp hi)
  have hlength := hnodup.length_le_of_subset hsub
  rwa [List.length_map, List.length_range, h.length_taken] at hlength

theorem History.nodup (h : History stem calls indices s) : ((new stem).generated calls).Nodup := by
  rw [h.generated_eq]
  exact List.Pairwise.map _ (fun i j hij he => (Nat.ne_of_lt hij) (append_toString_injective he)) h.increasing

end History

theorem exists_history (stem : String) (calls : List Call) :
    ∃ indices, History stem calls indices ((new stem).run calls) := by
  induction calls using List.reverseRecOn with
  | nil => exact ⟨[], .start stem⟩
  | append_singleton calls call ih =>
    obtain ⟨indices, h⟩ := ih
    rw [run_concat]
    cases call with
    | reserve name => exact ⟨indices, h.reserve name⟩
    | next =>
      obtain ⟨i, hi, hnext⟩ := exists_next ((new stem).run calls)
      exact ⟨_, h.next rfl hi hnext⟩

/-- The names that a new source gives in any run of calls: a stem with increasing numbers, all different,
and identifiers if the stem is one. Each search for a name ends, though nothing bounds it, and it ends at
the least index left whose name was neither reserved nor generated; what it passes over was reserved. As the
counter never exceeds the number of the calls, fewer than 2^64 calls never leave a machine word. -/
theorem generation_law (stem : String) (calls : List Call) :
    let names := (new stem).generated calls
    (∃ indices : List Nat, indices.Pairwise (· < ·) ∧ names = indices.map fun i => stem ++ toString i) ∧
    names.Nodup ∧
    (Text.isIdentifier stem = true → ∀ name ∈ names, Text.isIdentifier name = true) ∧
    ((new stem).run calls).counter ≤ calls.length ∧
    ∀ before after, calls = before ++ .next :: after →
      let s := (new stem).run before
      let earlier := (new stem).generated before
      ∃ index, (∀ j, s.Search s.counter j ↔ j = index) ∧
        names = earlier ++ (stem ++ toString index) :: s.next.2.generated after ∧
        IsLeast {i | s.counter ≤ i ∧ stem ++ toString i ∉ reserved before ++ earlier} index ∧
        ∀ i, s.counter ≤ i → i < index → stem ++ toString i ∈ reserved before := by
  obtain ⟨indices, h⟩ := exists_history stem calls
  refine ⟨⟨indices, h.increasing, h.generated_eq⟩, h.nodup, fun hstem name hname => ?_, h.counter_le, ?_⟩
  · rw [h.generated_eq] at hname
    obtain ⟨i, -, rfl⟩ := List.mem_map.mp hname
    exact Text.isIdentifier_append_toString hstem i
  · rintro before after rfl
    obtain ⟨_, hbefore⟩ := exists_history stem before
    obtain ⟨i, hi, hnext⟩ := exists_next ((new stem).run before)
    refine ⟨i, fun j => hi.search_iff, ?_, hbefore.isLeast hi, fun j hj hlt =>
      hbefore.mem_reserved hj (hi.taken j hj hlt)⟩
    have hname : ((new stem).run before).next.1 = stem ++ toString i := by rw [hnext, hbefore.nameAt]
    rw [generated_append, generated, hname]

example : (new "p").generated [.reserve "p1", .next, .reserve "p0", .next, .reserve "p3", .next] =
    ["p0", "p2", "p4"] := by decide

end NameSource
end GraphQuery
