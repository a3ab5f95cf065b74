import GraphQuery.Proofs.Text.Characters
import GraphQuery.Text.Quoted

/-! The two ends of a text, and what trimming leaves of it. -/
namespace GraphQuery.Text

/-- The text has a first character, and it is not blank. -/
def BeginsTight (s : String) : Prop := ∃ c ∈ s.toList.head?, isBlank c = false

/-- The text has a last character, and it is not blank. -/
def EndsTight (s : String) : Prop := ∃ c ∈ s.toList.getLast?, isBlank c = false

/-- The last character of the text is blank. -/
def EndsBlank (s : String) : Prop := ∃ c ∈ s.toList.getLast?, isBlank c = true

instance (s : String) : Decidable (BeginsTight s) :=
  decidable_of_iff (s.toList.head?.any fun c => !isBlank c) (by simp [BeginsTight, Option.any_eq_true])

instance (s : String) : Decidable (EndsTight s) :=
  decidable_of_iff (s.toList.getLast?.any fun c => !isBlank c) (by simp [EndsTight, Option.any_eq_true])

instance (s : String) : Decidable (EndsBlank s) :=
  decidable_of_iff (s.toList.getLast?.any isBlank) (by simp [EndsBlank, Option.any_eq_true])

theorem BeginsTight.append {s : String} (h : BeginsTight s) (t : String) : BeginsTight (s ++ t) := by
  obtain ⟨c, hc, hb⟩ := h
  refine ⟨c, ?_, hb⟩
  rw [Option.mem_def] at hc ⊢
  rw [String.toList_append, List.head?_append, hc, Option.some_or]

theorem EndsTight.append (s : String) {t : String} (h : EndsTight t) : EndsTight (s ++ t) := by
  obtain ⟨c, hc, hb⟩ := h
  refine ⟨c, ?_, hb⟩
  rw [Option.mem_def] at hc ⊢
  rw [String.toList_append, List.getLast?_append, hc, Option.some_or]

theorem EndsTight.append_of_not_endsBlank {s t : String} (hs : EndsTight s) (ht : ¬ EndsBlank t) :
    EndsTight (s ++ t) := by
  cases hl : t.toList.getLast? with
  | none =>
    obtain ⟨c, hc, hb⟩ := hs
    refine ⟨c, ?_, hb⟩
    rw [Option.mem_def] at hc ⊢
    rw [String.toList_append, List.getLast?_append, hl, hc, Option.none_or]
  | some c =>
    refine .append s ⟨c, hl, ?_⟩
    by_cases hb : isBlank c = true
    · exact absurd ⟨c, hl, hb⟩ ht
    · simpa using hb

theorem EndsTight.not_endsBlank {s : String} (h : EndsTight s) : ¬ EndsBlank s := by
  rintro ⟨c, hc, hb⟩
  obtain ⟨d, hd, hd'⟩ := h
  rw [Option.mem_unique hc hd, hd'] at hb
  exact absurd hb (by decide)

/-- A text without blank characters ends in none. -/
theorem EndsTight.of_forall {s : String} (hs : s ≠ "") (h : ∀ c ∈ s.toList, isBlank c = false) :
    EndsTight s := by
  have hne : s.toList ≠ [] := fun h => hs (String.toList_eq_nil_iff.mp h)
  exact ⟨s.toList.getLast hne, List.getLast?_eq_some_getLast hne, h _ (List.getLast_mem hne)⟩

theorem endsTight_identifier (n : Identifier) : EndsTight n.text :=
  .of_forall (fun h => by simpa [h] using n.valid) fun _ hc =>
    (isNamePart_not_delimiter (isNamePart_of_mem n.valid hc)).1

theorem endsTight_toString (n : Nat) : EndsTight (toString n) := by
  refine .of_forall (fun h => ?_) fun _ hc => (isNumeral_not_delimiter (isNumeral_of_mem_toString hc)).1
  exact Nat.toDigits_ne_nil (toList_toString n ▸ congrArg String.toList h)

theorem endsTight_quotedName (s : String) : EndsTight (quotedName s) :=
  ⟨'\x60', by simp [List.getLast?_cons], by decide⟩

theorem endsTight_quotedString (s : String) : EndsTight (quotedString s) :=
  ⟨'\x27', by simp [List.getLast?_cons], by decide⟩

theorem endsTight_toString_int (n : Int) : EndsTight (toString n) := by
  refine .of_forall (fun h => ?_) fun _ hc => (isNumeral_not_delimiter (isNumeral_of_mem_toString_int hc)).1
  have hne : ∀ k : Nat, k.repr.toList ≠ [] := fun k => Nat.toList_repr ▸ Nat.toDigits_ne_nil
  rw [Int.toString_eq_repr, Int.repr_eq_if] at h
  split at h
  · exact hne _ (congrArg String.toList h)
  · exact absurd (congrArg String.toList h) (by simp)

theorem floatText_ne_empty (x : Binary64) : Literal.floatText x ≠ "" := by
  have hpositional : ∀ d : Decimal, d.positional ≠ [] := by
    intro d h
    unfold Decimal.positional at h
    split at h
    · exact Nat.toDigits_ne_nil (List.append_eq_nil_iff.mp h).1
    · split at h
      · exact absurd (List.append_eq_nil_iff.mp h).2 (List.cons_ne_nil _ _)
      · exact absurd h (List.cons_ne_nil _ _)
  intro h
  have hl := congrArg String.toList h
  rw [Literal.floatText, String.toList_ofList] at hl
  split at hl
  · exact absurd hl (List.cons_ne_nil _ _)
  · split at hl
    · exact Nat.toDigits_ne_nil (List.append_eq_nil_iff.mp hl).1
    · exact hpositional _ hl

theorem endsTight_literal (l : Literal) : EndsTight l.text := by
  cases l with
  | null => decide
  | boolean b => cases b <;> decide
  | integer n => exact endsTight_toString_int _
  | float x =>
    exact .of_forall (floatText_ne_empty x) fun _ hc =>
      (isNumeral_not_delimiter (isNumeral_of_mem_floatText hc)).1
  | string s => exact endsTight_quotedString s
  | list items => exact .append _ (by decide)

theorem beginsTight_list (ls : List Literal) : BeginsTight (Literal.list ls).text :=
  ((by decide : BeginsTight "[").append _).append _

/-- The first member of a joined list, and the others each behind a separator. -/
theorem intercalate_cons (sep t : String) (ts : List String) :
    sep.intercalate (t :: ts) = t ++ String.join (ts.map fun u => sep ++ u) := by
  induction ts generalizing t with
  | nil => simp
  | cons u ts ih =>
    rw [String.intercalate_cons_cons, ih u, List.map_cons, String.join_cons, String.append_assoc,
      String.append_assoc]

section Trimming

theorem dropBlank_append {cs ds : List Char} (h : ∀ c ∈ cs, isBlank c = true) :
    dropBlank (cs ++ ds) = dropBlank ds := by
  induction cs with
  | nil => rfl
  | cons c cs ih =>
    have hc : isBlank c = true := h c List.mem_cons_self
    rw [List.cons_append, dropBlank, List.dropWhile_cons, if_pos hc]
    exact ih fun d hd => h d (List.mem_cons_of_mem c hd)

theorem dropBlank_of_head {cs : List Char} (h : ∃ c ∈ cs.head?, isBlank c = false) : dropBlank cs = cs := by
  obtain ⟨c, hc, hb⟩ := h
  cases cs with
  | nil => simp at hc
  | cons d cs =>
    obtain rfl : d = c := by simpa using hc
    rw [dropBlank, List.dropWhile_cons, if_neg (by simp [hb])]

theorem dropBlank_append_of_head {cs ds : List Char} (h : ∃ d ∈ ds.head?, isBlank d = false) :
    dropBlank (cs ++ ds) = dropBlank cs ++ ds := by
  induction cs with
  | nil => exact dropBlank_of_head h
  | cons c cs ih =>
    cases hc : isBlank c with
    | true => simpa only [dropBlank, List.cons_append, List.dropWhile_cons, hc, if_true] using ih
    | false => simp only [dropBlank, List.cons_append, List.dropWhile_cons, hc, Bool.false_eq_true, if_false]

/-- Around a text with tight ends the two parts are trimmed on their own. -/
theorem trimmed_around {t : String} (ht : BeginsTight t) (ht' : EndsTight t) (s u : String) :
    trimmed (s ++ t ++ u) = String.ofList (dropBlank s.toList) ++ t ++
      String.ofList (dropBlank u.toList.reverse).reverse := by
  have hfront : dropBlank (s ++ t ++ u).toList = dropBlank s.toList ++ (t ++ u).toList := by
    rw [String.append_assoc, String.toList_append]
    exact dropBlank_append_of_head (ht.append u)
  have hback : dropBlank (dropBlank s.toList ++ (t ++ u).toList).reverse =
      dropBlank u.toList.reverse ++ (dropBlank s.toList ++ t.toList).reverse := by
    have hlast := EndsTight.append (String.ofList (dropBlank s.toList)) ht'
    rw [EndsTight, String.toList_append, String.toList_ofList, ← List.head?_reverse] at hlast
    rw [String.toList_append, ← List.append_assoc, List.reverse_append]
    exact dropBlank_append_of_head hlast
  rw [trimmed, hfront, hback, List.reverse_append, List.reverse_reverse, String.ofList_append,
    String.ofList_append, String.ofList_toList]

/-- Trimming takes away exactly the blanks behind a text with tight ends. -/
theorem trimmed_append {s t : String} (hs : BeginsTight s) (he : EndsTight s)
    (ht : ∀ c ∈ t.toList, isBlank c = true) : trimmed (s ++ t) = s := by
  have hblank : dropBlank (t.toList.reverse ++ []) = [] :=
    dropBlank_append fun c hc => ht c (List.mem_reverse.mp hc)
  rw [List.append_nil] at hblank
  have htrimmed := trimmed_around hs he "" t
  rw [hblank, String.empty_append] at htrimmed
  exact htrimmed.trans (by simp [dropBlank])

end Trimming

section Lists

theorem BeginsTight.intercalate {sep t : String} (h : BeginsTight t) (ts : List String) :
    BeginsTight (sep.intercalate (t :: ts)) := by
  cases ts with
  | nil => rwa [String.intercalate_singleton]
  | cons u ts =>
    rw [String.intercalate_cons_cons, String.append_assoc]
    exact h.append _

theorem EndsTight.intercalate {sep : String} {ts : List String} (hne : ts ≠ [])
    (h : ∀ t ∈ ts, EndsTight t) : EndsTight (sep.intercalate ts) := by
  induction ts with
  | nil => exact absurd rfl hne
  | cons t ts ih =>
    by_cases hts : ts = []
    · rw [hts, String.intercalate_singleton]
      exact h t List.mem_cons_self
    · rw [String.intercalate_cons_of_ne_nil hts]
      exact .append _ (ih hts fun u hu => h u (List.mem_cons_of_mem t hu))

theorem EndsTight.join {ts : List String} (hne : ts ≠ []) (h : ∀ t ∈ ts, EndsTight t) :
    EndsTight (String.join ts) := by
  induction ts with
  | nil => exact absurd rfl hne
  | cons t ts ih =>
    rw [String.join_cons]
    by_cases hts : ts = []
    · rw [hts, String.join_nil, String.append_empty]
      exact h t List.mem_cons_self
    · exact .append _ (ih hts fun u hu => h u (List.mem_cons_of_mem t hu))

end Lists

end GraphQuery.Text
