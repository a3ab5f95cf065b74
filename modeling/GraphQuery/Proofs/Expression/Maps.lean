import GraphQuery.Pattern
import GraphQuery.Proofs.Outcome
import Mathlib.Data.List.Nodup

/-! Maps from arguments: those at the even places are the keys, and behind each of them is its value. What is wrong
with the arguments is told in this order: their number, one in the place of a key that is none, wherever it is, and
then from left to right the first key that is empty or has stood there before. -/
namespace GraphQuery

namespace MapArgument

/-- Keys and values in turn. -/
def alternating (ps : List (String × MapArgument)) : List MapArgument := ps.flatMap fun p => [.key p.1, p.2]

/-- In the place of a key there is something else. -/
def Misplaced (arguments : List MapArgument) : Prop := ∃ i e, arguments[2 * i]? = some (.value e)

section Pairs

variable {arguments : List MapArgument} (ps : List (String × MapArgument))

@[simp] theorem alternating_cons (p : String × MapArgument) :
    alternating (p :: ps) = .key p.1 :: p.2 :: alternating ps := rfl

@[simp] theorem length_alternating : (alternating ps).length = 2 * ps.length := by
  induction ps with
  | nil => rfl
  | cons p ps ih =>
    simp only [alternating_cons, List.length_cons, ih]
    omega

theorem getElem?_alternating (i : Nat) : (alternating ps)[2 * i]? = ps[i]?.map fun p => .key p.1 := by
  induction ps generalizing i with
  | nil => rfl
  | cons p ps ih =>
    cases i with
    | zero => rfl
    | succ i => exact ih i

theorem getElem?_alternating_eq_key {i : Nat} {k : String} :
    (alternating ps)[2 * i]? = some (.key k) ↔ (ps.map Prod.fst)[i]? = some k := by
  simp [getElem?_alternating]

theorem not_misplaced_alternating : ¬ Misplaced (alternating ps) := by
  rintro ⟨i, e, h⟩
  rw [getElem?_alternating, Option.map_eq_some_iff] at h
  obtain ⟨p, -, hp⟩ := h
  cases hp

theorem pairs_alternating : pairs (alternating ps) = .ok (ps.map fun p => (p.1, p.2.toValue)) := by
  induction ps with
  | nil => rfl
  | cons p ps ih =>
    rw [alternating_cons, pairs, ih]
    rfl

/-- Arguments of an even number are keys and values in turn, unless one is misplaced. -/
theorem alternating_or_misplaced (even : arguments.length % 2 = 0) :
    (∃ ps, arguments = alternating ps) ∨ Misplaced arguments ∧ pairs arguments = .error .mapKeyInvalid := by
  induction arguments using pairs.induct with
  | case1 k v rest ih =>
    have hrest : rest.length % 2 = 0 := by
      simp only [List.length_cons] at even
      omega
    obtain ⟨ps, rfl⟩ | ⟨⟨i, e, hi⟩, hpairs⟩ := ih hrest
    · exact .inl ⟨(k, v) :: ps, rfl⟩
    · exact .inr ⟨⟨i + 1, e, hi⟩, by rw [pairs, hpairs]; rfl⟩
  | case2 e v rest => exact .inr ⟨⟨0, e, rfl⟩, rfl⟩
  | case3 arguments hkey hvalue =>
    match arguments with
    | [] => exact .inl ⟨[], rfl⟩
    | [a] => simp at even
    | .key k :: v :: rest => exact absurd rfl (hkey k v rest)
    | .value e :: v :: rest => exact absurd rfl (hvalue e v rest)

/-- The keys and values in turn are those lists of an even length in which nothing is misplaced. -/
theorem exists_alternating_iff :
    (∃ ps, arguments = alternating ps) ↔ arguments.length % 2 = 0 ∧ ¬ Misplaced arguments := by
  constructor
  · rintro ⟨ps, rfl⟩
    exact ⟨by simp, not_misplaced_alternating ps⟩
  · rintro ⟨even, hplaced⟩
    exact (alternating_or_misplaced even).resolve_right fun h => hplaced h.1

end Pairs

end MapArgument

namespace MapExpression

open MapArgument

/-- The keys are not empty, do not repeat and are not among others. -/
def Fresh (seen keys : List String) : Prop := (∀ k ∈ keys, k ≠ "" ∧ k ∉ seen) ∧ keys.Nodup

/-- What is wrong with a key behind others. -/
inductive KeyFault (seen : List String) : String → ArgumentError → Prop
  | empty : KeyFault seen "" .mapKeyInvalid
  | repeated {k : String} (nonempty : k ≠ "") (h : k ∈ seen) : KeyFault seen k (.mapKeyRepeated k)

/-- The first fault from left to right. -/
def FirstFault (seen keys : List String) (e : ArgumentError) : Prop :=
  ∃ before k behind, keys = before ++ k :: behind ∧ Fresh seen before ∧ KeyFault (before ++ seen) k e

section Keys

variable {seen others keys : List String} {k : String} {e : ArgumentError}

theorem KeyFault.mono (h : KeyFault seen k e) (hs : seen ⊆ others) : KeyFault others k e := by
  cases h with
  | empty => exact .empty
  | repeated nonempty h => exact .repeated nonempty (hs h)

theorem fresh_nil : Fresh seen [] := ⟨nofun, .nil⟩

theorem fresh_cons : Fresh seen (k :: keys) ↔ (k ≠ "" ∧ k ∉ seen) ∧ Fresh (k :: seen) keys := by
  simp only [Fresh, List.nodup_cons, List.mem_cons, not_or]
  grind

theorem firstFault_cons : FirstFault seen (k :: keys) e ↔
    KeyFault seen k e ∨ (k ≠ "" ∧ k ∉ seen) ∧ FirstFault (k :: seen) keys e := by
  constructor
  · rintro ⟨before, l, behind, hkeys, hfresh, hfault⟩
    cases before with
    | nil =>
      cases hkeys
      exact .inl hfault
    | cons m before =>
      cases hkeys
      obtain ⟨hm, hfresh⟩ := fresh_cons.mp hfresh
      exact .inr ⟨hm, before, l, behind, rfl, hfresh, hfault.mono (by simp)⟩
  · rintro (hfault | ⟨hk, before, l, behind, rfl, hfresh, hfault⟩)
    · exact ⟨[], k, keys, rfl, fresh_nil, hfault⟩
    · exact ⟨k :: before, l, behind, rfl, fresh_cons.mpr ⟨hk, hfresh⟩, hfault.mono (by simp)⟩

theorem keyFault_or (seen : List String) (k : String) : (∃ e, KeyFault seen k e) ∨ k ≠ "" ∧ k ∉ seen := by
  by_cases hempty : k = ""
  · exact .inl ⟨_, hempty ▸ KeyFault.empty⟩
  · by_cases hseen : k ∈ seen
    · exact .inl ⟨_, .repeated hempty hseen⟩
    · exact .inr ⟨hempty, hseen⟩

theorem KeyFault.not_fresh (h : KeyFault seen k e) : ¬ (k ≠ "" ∧ k ∉ seen) := by
  cases h with
  | empty => simp
  | repeated _ h => exact fun hk => hk.2 h

end Keys

section Entries

variable {seen : List String} {ps : List (String × Expression)} {k : String} {v : Expression}

theorem entriesOf_cons_fault {e : ArgumentError} (h : KeyFault seen k e) :
    entriesOf seen ((k, v) :: ps) = .error e := by
  rw [entriesOf]
  cases h with
  | empty => rfl
  | repeated nonempty h => rw [if_neg nonempty, if_pos h]

theorem entriesOf_cons_fresh (h : k ≠ "" ∧ k ∉ seen) :
    entriesOf seen ((k, v) :: ps) = (entriesOf (k :: seen) ps).map (⟨k, v⟩ :: ·) := by
  rw [entriesOf, if_neg h.1, if_neg h.2]

theorem entriesOf_eq_ok_iff {es : List MapEntry} :
    entriesOf seen ps = .ok es ↔ Fresh seen (ps.map Prod.fst) ∧ es = ps.map fun p => ⟨p.1, p.2⟩ := by
  induction ps generalizing seen es with
  | nil =>
    rw [entriesOf, Except.ok.injEq]
    exact ⟨fun h => ⟨fresh_nil, h.symm⟩, fun h => h.2.symm⟩
  | cons p ps ih =>
    obtain ⟨k, v⟩ := p
    rw [List.map_cons, fresh_cons]
    obtain ⟨e, hfault⟩ | hk := keyFault_or seen k
    · rw [entriesOf_cons_fault hfault]
      exact ⟨nofun, fun h => absurd h.1.1 hfault.not_fresh⟩
    · rw [entriesOf_cons_fresh hk, Outcome.map_eq_ok_iff]
      simp only [ih]
      constructor
      · rintro ⟨_, ⟨hfresh, rfl⟩, rfl⟩
        exact ⟨⟨hk, hfresh⟩, rfl⟩
      · rintro ⟨⟨-, hfresh⟩, rfl⟩
        exact ⟨_, ⟨hfresh, rfl⟩, rfl⟩

theorem entriesOf_eq_error_iff {e : ArgumentError} :
    entriesOf seen ps = .error e ↔ FirstFault seen (ps.map Prod.fst) e := by
  induction ps generalizing seen with
  | nil =>
    refine ⟨nofun, ?_⟩
    rintro ⟨before, k, behind, hkeys, -⟩
    cases before <;> cases hkeys
  | cons p ps ih =>
    obtain ⟨k, v⟩ := p
    rw [List.map_cons, firstFault_cons]
    obtain ⟨d, hfault⟩ | hk := keyFault_or seen k
    · rw [entriesOf_cons_fault hfault]
      constructor
      · rintro ⟨⟩
        exact .inl hfault
      · rintro (h | ⟨hk, -⟩)
        · have hd : entriesOf seen [(k, v)] = .error d := entriesOf_cons_fault hfault
          have he : entriesOf seen [(k, v)] = .error e := entriesOf_cons_fault h
          exact congrArg _ (Except.error.inj (hd.symm.trans he))
        · exact absurd hk hfault.not_fresh
    · rw [entriesOf_cons_fresh hk, Outcome.map_eq_error_iff, ih]
      exact ⟨fun h => .inr ⟨hk, h⟩, fun h => h.elim (fun hfault => absurd hk hfault.not_fresh) And.right⟩

end Entries

section Create

variable {arguments : List MapArgument}

/-- What is wrong with arguments. -/
inductive Refusal (arguments : List MapArgument) : ArgumentError → Prop
  | odd (odd : arguments.length % 2 = 1) : Refusal arguments .mapArgumentsOdd
  | misplaced (even : arguments.length % 2 = 0) (h : Misplaced arguments) : Refusal arguments .mapKeyInvalid
  | key {ps : List (String × MapArgument)} {e : ArgumentError} (pairs : arguments = alternating ps)
      (fault : FirstFault [] (ps.map Prod.fst) e) : Refusal arguments e

theorem create_odd (odd : arguments.length % 2 = 1) : create arguments = .error .mapArgumentsOdd := if_pos odd

theorem create_misplaced (even : arguments.length % 2 = 0) (h : Misplaced arguments) :
    create arguments = .error .mapKeyInvalid := by
  rw [create, if_neg (by omega)]
  obtain ⟨ps, rfl⟩ | ⟨-, hpairs⟩ := alternating_or_misplaced even
  · exact absurd h (not_misplaced_alternating ps)
  · rw [hpairs]
    rfl

theorem create_alternating (ps : List (String × MapArgument)) :
    create (alternating ps) = (entriesOf [] (ps.map fun p => (p.1, p.2.toValue))).map .mk := by
  rw [create, if_neg (by simp), pairs_alternating]
  rfl

theorem create_alternating_eq_ok_iff {ps : List (String × MapArgument)} {m : MapExpression} :
    create (alternating ps) = .ok m ↔
      Fresh [] (ps.map Prod.fst) ∧ m = ⟨ps.map fun p => ⟨p.1, p.2.toValue⟩⟩ := by
  rw [create_alternating, Outcome.map_eq_ok_iff]
  simp only [entriesOf_eq_ok_iff, List.map_map]
  constructor
  · rintro ⟨_, ⟨hfresh, rfl⟩, rfl⟩
    exact ⟨hfresh, rfl⟩
  · rintro ⟨hfresh, rfl⟩
    exact ⟨_, ⟨hfresh, rfl⟩, rfl⟩

theorem create_alternating_eq_error_iff {ps : List (String × MapArgument)} {e : ArgumentError} :
    create (alternating ps) = .error e ↔ FirstFault [] (ps.map Prod.fst) e := by
  rw [create_alternating, Outcome.map_eq_error_iff, entriesOf_eq_error_iff, List.map_map]
  rfl

theorem cases_arguments (arguments : List MapArgument) : arguments.length % 2 = 1 ∨
    (arguments.length % 2 = 0 ∧ Misplaced arguments) ∨ ∃ ps, arguments = alternating ps := by
  obtain heven | hodd := Nat.mod_two_eq_zero_or_one arguments.length
  · exact .inr ((alternating_or_misplaced heven).symm.imp_left fun h => ⟨heven, h.1⟩)
  · exact .inl hodd

theorem create_eq_ok_iff {m : MapExpression} : create arguments = .ok m ↔
    ∃ ps, arguments = alternating ps ∧ Fresh [] (ps.map Prod.fst) ∧ m = ⟨ps.map fun p => ⟨p.1, p.2.toValue⟩⟩ := by
  constructor
  · intro h
    obtain hodd | ⟨heven, hmisplaced⟩ | ⟨ps, rfl⟩ := cases_arguments arguments
    · rw [create_odd hodd] at h
      cases h
    · rw [create_misplaced heven hmisplaced] at h
      cases h
    · exact ⟨ps, rfl, create_alternating_eq_ok_iff.mp h⟩
  · rintro ⟨ps, rfl, h⟩
    exact create_alternating_eq_ok_iff.mpr h

theorem create_eq_error_iff {e : ArgumentError} : create arguments = .error e ↔ Refusal arguments e := by
  constructor
  · intro h
    obtain hodd | ⟨heven, hmisplaced⟩ | ⟨ps, rfl⟩ := cases_arguments arguments
    · rw [create_odd hodd] at h
      cases h
      exact .odd hodd
    · rw [create_misplaced heven hmisplaced] at h
      cases h
      exact .misplaced heven hmisplaced
    · exact .key rfl (create_alternating_eq_error_iff.mp h)
  · intro h
    cases h with
    | odd hodd => exact create_odd hodd
    | misplaced heven hmisplaced => exact create_misplaced heven hmisplaced
    | key hpairs hfault => exact hpairs ▸ create_alternating_eq_error_iff.mpr hfault

theorem fresh_iff {keys : List String} : Fresh [] keys ↔
    (∀ i : Nat, keys[i]? ≠ some "") ∧ ∀ (i j : Nat) k, keys[i]? = some k → keys[j]? = some k → i = j := by
  constructor
  · rintro ⟨hkeys, hnodup⟩
    refine ⟨fun i hi => (hkeys "" (List.mem_of_getElem? hi)).1 rfl, fun i j k hi hj => ?_⟩
    exact (List.getElem?_inj (List.getElem?_eq_some_iff.mp hi).1 hnodup).mp (hi.trans hj.symm)
  · rintro ⟨hempty, hunique⟩
    refine ⟨fun k hk => ⟨?_, List.not_mem_nil⟩, List.nodup_iff_getElem?_ne_getElem?.mpr fun i j hij hj h => ?_⟩
    · rintro rfl
      obtain ⟨i, hi⟩ := List.mem_iff_getElem?.mp hk
      exact hempty i hi
    · exact absurd (hunique i j keys[j] (h.trans (List.getElem?_eq_getElem hj)) (List.getElem?_eq_getElem hj))
        (Nat.ne_of_lt hij)

/-- The arguments of which a map is made, place by place. -/
theorem exists_create_eq_ok_iff : (∃ m, create arguments = .ok m) ↔ arguments.length % 2 = 0 ∧
    (∀ i e, arguments[2 * i]? ≠ some (.value e)) ∧ (∀ i : Nat, arguments[2 * i]? ≠ some (.key "")) ∧
    ∀ (i j : Nat) k, arguments[2 * i]? = some (.key k) → arguments[2 * j]? = some (.key k) → i = j := by
  constructor
  · rintro ⟨m, h⟩
    obtain ⟨ps, rfl, hfresh, -⟩ := create_eq_ok_iff.mp h
    simp only [ne_eq, getElem?_alternating_eq_key]
    exact ⟨by simp, fun i e hi => not_misplaced_alternating ps ⟨i, e, hi⟩, fresh_iff.mp hfresh⟩
  · rintro ⟨heven, hplaced, hkeys⟩
    obtain ⟨ps, rfl⟩ := exists_alternating_iff.mpr ⟨heven, fun ⟨i, e, hi⟩ => hplaced i e hi⟩
    simp only [ne_eq, getElem?_alternating_eq_key] at hkeys
    exact ⟨_, create_alternating_eq_ok_iff.mpr ⟨fresh_iff.mpr hkeys, rfl⟩⟩

/-- Where the properties go, they are the map of the arguments, and without arguments there are none. -/
theorem map_properties {α : Type} (f : Option MapExpression → α) : (properties arguments).map f =
    if arguments.isEmpty then .ok (f none) else (create arguments).map fun m => f (some m) := by
  rw [properties]
  split
  · rfl
  · cases create arguments <;> rfl

/-- A map is made of the arguments exactly if they are keys and values in turn and the keys are neither empty nor
repeated; it has them in their order, and a key in the place of a value is a string. Otherwise the first fault in the
order of `Refusal` is told. The properties of a node or a relationship are such a map too, and without arguments there
are none. -/
theorem create_classified (arguments : List MapArgument) :
    ((∃ m, create arguments = .ok m) ↔ arguments.length % 2 = 0 ∧
      (∀ i e, arguments[2 * i]? ≠ some (.value e)) ∧ (∀ i : Nat, arguments[2 * i]? ≠ some (.key "")) ∧
      ∀ (i j : Nat) k, arguments[2 * i]? = some (.key k) → arguments[2 * j]? = some (.key k) → i = j) ∧
    (∀ m, create arguments = .ok m ↔ ∃ ps, arguments = alternating ps ∧ Fresh [] (ps.map Prod.fst) ∧
      m = ⟨ps.map fun p => ⟨p.1, p.2.toValue⟩⟩) ∧
    (∀ text, (MapArgument.key text).toValue = .literal (.string text)) ∧
    (∀ e, create arguments = .error e ↔ Refusal arguments e) ∧
    (ArgumentError.mapArgumentsOdd.message = "Need an even number of input parameters." ∧
      ArgumentError.mapKeyInvalid.message = "Key needs to be of type String." ∧
      ∀ k, (ArgumentError.mapKeyRepeated k).message = "Duplicate key '" ++ k ++ "'") ∧
    (∀ n : Node, n.setProperties arguments =
      if arguments.isEmpty then .ok { n with properties := none } else (create arguments).map n.withProperties) ∧
    ∀ r : Relationship, r.setProperties arguments =
      if arguments.isEmpty then .ok (r.withDetail { r.detail with properties := none })
      else (create arguments).map r.withProperties := by
  refine ⟨exists_create_eq_ok_iff, fun _ => create_eq_ok_iff, fun _ => rfl, fun _ => create_eq_error_iff,
    ⟨rfl, rfl, fun _ => rfl⟩, fun n => map_properties _, fun r => ?_⟩
  have hset : r.setProperties arguments =
      (properties arguments).map fun map => r.withDetail { r.detail with properties := map } := by
    rw [Relationship.setProperties, RelationshipDetail.setProperties]
    cases properties arguments <;> rfl
  exact hset.trans (map_properties _)

end Create

end MapExpression
end GraphQuery
