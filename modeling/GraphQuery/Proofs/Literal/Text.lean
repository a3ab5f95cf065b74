import GraphQuery.Proofs.Literal.Numbers
import GraphQuery.Proofs.Text.Ends

/-! What the text of a literal determines. The end of a literal can be told from the text behind it, so the
text of a list determines the texts of its items. Only a wide float can be taken for something else: for
the integer that is written like it. -/
namespace GraphQuery

namespace Text

/-- No more of a number can follow: the text is empty or goes on with another character. -/
def EndsNumber (cs : List Char) : Prop := ∀ c ∈ cs.head?, isNumeral c = false

theorem endsNumber_nil : EndsNumber [] := nofun

theorem endsNumber_cons {c : Char} (h : isNumeral c = false) (cs : List Char) : EndsNumber (c :: cs) := by
  rintro d hd
  obtain rfl : c = d := by simpa using hd
  exact h

theorem takeWhile_of_endsNumber {cs : List Char} (h : EndsNumber cs) : cs.takeWhile isNumeral = [] := by
  cases cs with
  | nil => rfl
  | cons c cs => exact List.takeWhile_cons_of_neg (by simp [h c rfl])

/-- A number ends where its last numeral does. -/
theorem numerals_append_inj {cs ds r s : List Char} (hc : ∀ c ∈ cs, isNumeral c = true)
    (hd : ∀ d ∈ ds, isNumeral d = true) (hr : EndsNumber r) (hs : EndsNumber s) (h : cs ++ r = ds ++ s) :
    cs = ds ∧ r = s := by
  have htake := congrArg (List.takeWhile isNumeral) h
  rw [List.takeWhile_append_of_pos hc, List.takeWhile_append_of_pos hd, takeWhile_of_endsNumber hr,
    takeWhile_of_endsNumber hs, List.append_nil, List.append_nil] at htake
  subst htake
  exact ⟨rfl, List.append_cancel_left h⟩

/-- An escaped character is no bare quote. -/
theorem stringChar_ne_quote (c : Char) : ∃ d rest, stringChar c = d :: rest ∧ d ≠ '\x27' := by
  unfold stringChar
  split
  · exact ⟨'\\', [c], rfl, by decide⟩
  · next h => exact ⟨c, [], rfl, fun hq => h (.inr hq)⟩

theorem stringChar_append_inj {c d : Char} {r s : List Char} (h : stringChar c ++ r = stringChar d ++ s) :
    c = d ∧ r = s := by
  unfold stringChar at h
  split at h
  · split at h
    · obtain ⟨-, h⟩ := List.cons_eq_cons.mp h
      exact List.cons_eq_cons.mp h
    · next hd =>
      obtain ⟨rfl, -⟩ := List.cons_eq_cons.mp h
      exact absurd (.inl rfl) hd
  · next hc =>
    split at h
    · obtain ⟨rfl, -⟩ := List.cons_eq_cons.mp h
      exact absurd (.inl rfl) hc
    · exact List.cons_eq_cons.mp h

/-- The contents of a quoted string end at the first bare quote. -/
theorem stringChars_append_inj {cs ds r s : List Char}
    (h : cs.flatMap stringChar ++ '\x27' :: r = ds.flatMap stringChar ++ '\x27' :: s) : cs = ds ∧ r = s := by
  induction cs generalizing ds with
  | nil =>
    cases ds with
    | nil => exact ⟨rfl, (List.cons_eq_cons.mp h).2⟩
    | cons d ds =>
      obtain ⟨e, rest, he, hne⟩ := stringChar_ne_quote d
      rw [List.flatMap_cons, he] at h
      exact absurd (List.cons_eq_cons.mp h).1.symm hne
  | cons c cs ih =>
    cases ds with
    | nil =>
      obtain ⟨e, rest, he, hne⟩ := stringChar_ne_quote c
      rw [List.flatMap_cons, he] at h
      exact absurd (List.cons_eq_cons.mp h).1 hne
    | cons d ds =>
      rw [List.flatMap_cons, List.flatMap_cons, List.append_assoc, List.append_assoc] at h
      obtain ⟨rfl, hcontents⟩ := stringChar_append_inj h
      obtain ⟨rfl, hrest⟩ := ih hcontents
      exact ⟨rfl, hrest⟩

end Text

namespace Literal

open Text (EndsNumber endsNumber_cons)

/-- What the first character of a text tells of the literal. Both kinds of numbers begin alike. -/
inductive Lead where
  | null
  | boolean (value : Bool)
  | number
  | string
  | list
  deriving DecidableEq

def lead : Literal → Lead
  | null => .null
  | boolean b => .boolean b
  | integer _ | float _ => .number
  | string _ => .string
  | list _ => .list

def leadOf? (c : Char) : Option Lead :=
  if Text.isNumeral c then some .number
  else if c = 'N' then some .null
  else if c = 't' then some (.boolean true)
  else if c = 'f' then some (.boolean false)
  else if c = '\x27' then some .string
  else if c = '[' then some .list
  else none

mutual

/-- The floats of a literal, those in its items included. -/
def floats : Literal → List Binary64
  | float x => [x]
  | list items => floatsOfAll items
  | null | boolean _ | integer _ | string _ => []

def floatsOfAll : List Literal → List Binary64
  | [] => []
  | l :: rest => floats l ++ floatsOfAll rest

end

mutual

/-- Equal literals, a wide float and the integer that is written like it, and lists of such. -/
inductive WrittenAlike : Literal → Literal → Prop
  | refl (l : Literal) : WrittenAlike l l
  | integer {n : Int64} {x : Binary64} (wide : x.IsWide) (value : n.toInt = x.writtenWhole) :
      WrittenAlike (.integer n) (.float x)
  | float {n : Int64} {x : Binary64} (wide : x.IsWide) (value : n.toInt = x.writtenWhole) :
      WrittenAlike (.float x) (.integer n)
  | list {as bs : List Literal} (items : AllWrittenAlike as bs) : WrittenAlike (.list as) (.list bs)

inductive AllWrittenAlike : List Literal → List Literal → Prop
  | nil : AllWrittenAlike [] []
  | cons {a b : Literal} {as bs : List Literal} (first : WrittenAlike a b) (others : AllWrittenAlike as bs) :
      AllWrittenAlike (a :: as) (b :: bs)

end

section Lead

theorem isNumeral_integer {n : Int64} {c : Char} (h : c ∈ (integer n).text.toList) : Text.isNumeral c = true :=
  Text.isNumeral_of_mem_toString_int h

theorem isNumeral_float {x : Binary64} {c : Char} (h : c ∈ (float x).text.toList) : Text.isNumeral c = true :=
  Text.isNumeral_of_mem_floatText h

theorem toList_list (items : List Literal) :
    (list items).text.toList = '[' :: ((", ".intercalate (texts items)).toList ++ [']']) := by
  rw [text, String.toList_append, String.toList_append, List.append_assoc]
  rfl

theorem exists_lead (l : Literal) : ∃ c rest, l.text.toList = c :: rest ∧ leadOf? c = some l.lead := by
  have hnumber : ∀ cs : List Char, cs ≠ [] → (∀ c ∈ cs, Text.isNumeral c = true) →
      ∃ c rest, cs = c :: rest ∧ leadOf? c = some .number := by
    intro cs hne hcs
    obtain ⟨c, rest, rfl⟩ := List.exists_cons_of_ne_nil hne
    exact ⟨c, rest, rfl, if_pos (hcs c List.mem_cons_self)⟩
  have hne : ∀ t : String, Text.EndsTight t → t.toList ≠ [] := by
    rintro t ⟨c, hc, -⟩ hnil
    simp [hnil] at hc
  cases l with
  | null => exact ⟨'N', _, rfl, by decide⟩
  | boolean b =>
    cases b with
    | true => exact ⟨'t', _, rfl, by decide⟩
    | false => exact ⟨'f', _, rfl, by decide⟩
  | integer n => exact hnumber _ (hne _ (Text.endsTight_literal _)) fun c hc => isNumeral_integer hc
  | float x => exact hnumber _ (hne _ (Text.endsTight_literal _)) fun c hc => isNumeral_float hc
  | string s => exact ⟨'\x27', _, Text.toList_quotedString s, rfl⟩
  | list items => exact ⟨'[', _, toList_list items, rfl⟩

theorem lead_eq_of_append {a b : Literal} {r s : List Char} (h : a.text.toList ++ r = b.text.toList ++ s) :
    a.lead = b.lead := by
  obtain ⟨c, cs, ha, hc⟩ := a.exists_lead
  obtain ⟨d, ds, hb, hd⟩ := b.exists_lead
  rw [ha, hb] at h
  exact Option.some.inj (by rw [← hc, ← hd, (List.cons_eq_cons.mp h).1])

end Lead

/-- The items of a list behind the first one. -/
def behind (items : List Literal) : List Char := items.flatMap fun l => ',' :: ' ' :: l.text.toList

theorem toList_list_cons (l : Literal) (ls : List Literal) :
    (list (l :: ls)).text.toList = '[' :: (l.text.toList ++ (behind ls ++ [']'])) := by
  have hjoin : (String.join (ls.map fun l => ", " ++ l.text)).toList = behind ls := by
    induction ls with
    | nil => rfl
    | cons l ls ih =>
      rw [List.map_cons, String.join_cons, String.toList_append, ih, behind, behind, List.flatMap_cons,
        String.toList_append]
      rfl
  rw [toList_list, texts_eq_map, List.map_cons, Text.intercalate_cons, List.map_map, String.toList_append,
    Function.comp_def, hjoin, List.append_assoc]

theorem toList_list_nil : (list []).text.toList = ['[', ']'] := by decide

theorem endsNumber_behind (ls : List Literal) (r : List Char) : EndsNumber (behind ls ++ ']' :: r) := by
  cases ls with
  | nil => exact endsNumber_cons (by decide) r
  | cons l ls => exact endsNumber_cons (by decide) _

theorem exists_lead_ne_bracket (l : Literal) : ∃ c rest, l.text.toList = c :: rest ∧ c ≠ ']' := by
  obtain ⟨c, rest, htext, hc⟩ := l.exists_lead
  refine ⟨c, rest, htext, ?_⟩
  rintro rfl
  exact absurd hc (by rw [show leadOf? ']' = none by decide]; exact nofun)

mutual

/-- Where texts of literals begin the same text, the literals are written alike and end at one place. -/
theorem alike_of_append {a b : Literal} {r s : List Char} (hr : EndsNumber r) (hs : EndsNumber s)
    (h : a.text.toList ++ r = b.text.toList ++ s) : WrittenAlike a b ∧ r = s := by
  have hlead := lead_eq_of_append h
  cases a with
  | null =>
    cases b with
    | null => exact ⟨.refl _, List.append_cancel_left h⟩
    | _ => cases hlead
  | boolean x =>
    cases b with
    | boolean y =>
      cases hlead
      exact ⟨.refl _, List.append_cancel_left h⟩
    | _ => cases hlead
  | integer m =>
    cases b with
    | integer n =>
      obtain ⟨htext, hrest⟩ :=
        Text.numerals_append_inj (fun c => isNumeral_integer) (fun c => isNumeral_integer) hr hs h
      obtain rfl : m = n := Int64.toInt_inj.mp (toString_int_injective (String.toList_inj.mp htext))
      exact ⟨.refl _, hrest⟩
    | float x =>
      obtain ⟨htext, hrest⟩ :=
        Text.numerals_append_inj (fun c => isNumeral_integer) (fun c => isNumeral_float) hr hs h
      obtain ⟨hwide, hvalue⟩ := toString_eq_floatText_iff.mp (String.toList_inj.mp htext)
      exact ⟨.integer hwide hvalue, hrest⟩
    | _ => cases hlead
  | float x =>
    cases b with
    | integer n =>
      obtain ⟨htext, hrest⟩ :=
        Text.numerals_append_inj (fun c => isNumeral_float) (fun c => isNumeral_integer) hr hs h
      obtain ⟨hwide, hvalue⟩ := toString_eq_floatText_iff.mp (String.toList_inj.mp htext.symm)
      exact ⟨.float hwide hvalue, hrest⟩
    | float y =>
      obtain ⟨htext, hrest⟩ :=
        Text.numerals_append_inj (fun c => isNumeral_float) (fun c => isNumeral_float) hr hs h
      obtain rfl : x = y := Binary64.floatText_injective (String.toList_inj.mp htext)
      exact ⟨.refl _, hrest⟩
    | _ => cases hlead
  | string t =>
    cases b with
    | string u =>
      rw [text, text, Text.toList_quotedString, Text.toList_quotedString, Text.toList_escapedString,
        Text.toList_escapedString, List.cons_append, List.cons_append, List.append_assoc, List.append_assoc] at h
      obtain ⟨hcontents, hrest⟩ := Text.stringChars_append_inj (List.cons_eq_cons.mp h).2
      obtain rfl : t = u := String.toList_inj.mp hcontents
      exact ⟨.refl _, hrest⟩
    | _ => cases hlead
  | list as =>
    cases as with
    | nil =>
      cases b with
      | list bs =>
        cases bs with
        | nil => exact ⟨.refl _, List.append_cancel_left h⟩
        | cons b bs =>
          obtain ⟨c, rest, htext, hne⟩ := b.exists_lead_ne_bracket
          rw [toList_list_nil, toList_list_cons, htext] at h
          exact absurd (List.cons_eq_cons.mp (List.cons_eq_cons.mp h).2).1.symm hne
      | _ => cases hlead
    | cons a as =>
      cases b with
      | list bs =>
        cases bs with
        | nil =>
          obtain ⟨c, rest, htext, hne⟩ := a.exists_lead_ne_bracket
          rw [toList_list_nil, toList_list_cons, htext] at h
          exact absurd (List.cons_eq_cons.mp (List.cons_eq_cons.mp h).2).1 hne
        | cons b bs =>
          rw [toList_list_cons, toList_list_cons] at h
          simp only [List.cons_append, List.append_assoc, List.cons.injEq, true_and, List.nil_append] at h
          obtain ⟨hfirst, h⟩ := alike_of_append (endsNumber_behind as r) (endsNumber_behind bs s) h
          obtain ⟨hothers, hrest⟩ := allAlike_of_append h
          exact ⟨.list (.cons hfirst hothers), hrest⟩
      | _ => cases hlead
termination_by structural a

theorem allAlike_of_append {as bs : List Literal} {r s : List Char}
    (h : behind as ++ ']' :: r = behind bs ++ ']' :: s) : AllWrittenAlike as bs ∧ r = s := by
  match as with
  | [] =>
    cases bs with
    | nil => exact ⟨.nil, (List.cons_eq_cons.mp h).2⟩
    | cons b bs => exact absurd (List.cons_eq_cons.mp h).1 (by decide)
  | a :: as =>
    cases bs with
    | nil => exact absurd (List.cons_eq_cons.mp h).1 (by decide)
    | cons b bs =>
      simp only [behind, List.flatMap_cons, List.cons_append, List.append_assoc, List.cons.injEq, true_and] at h
      obtain ⟨hfirst, h⟩ := alike_of_append (endsNumber_behind as r) (endsNumber_behind bs s) h
      obtain ⟨hothers, hrest⟩ := allAlike_of_append h
      exact ⟨.cons hfirst hothers, hrest⟩
termination_by structural as

end

mutual

theorem WrittenAlike.text_eq {a b : Literal} (h : WrittenAlike a b) : a.text = b.text := by
  match h with
  | .refl l => rfl
  | .integer hwide hvalue => exact toString_eq_floatText_iff.mpr ⟨hwide, hvalue⟩
  | .float hwide hvalue => exact (toString_eq_floatText_iff.mpr ⟨hwide, hvalue⟩).symm
  | .list hitems => rw [text, text, hitems.texts_eq]
termination_by structural h

theorem AllWrittenAlike.texts_eq {as bs : List Literal} (h : AllWrittenAlike as bs) : texts as = texts bs := by
  match h with
  | .nil => rfl
  | .cons hfirst hothers => rw [texts, texts, hfirst.text_eq, hothers.texts_eq]
termination_by structural h

end

mutual

/-- Without wide floats only equal literals are written alike. -/
theorem WrittenAlike.eq {a b : Literal} (h : WrittenAlike a b) (ha : ∀ x ∈ a.floats, ¬ x.IsWide)
    (hb : ∀ x ∈ b.floats, ¬ x.IsWide) : a = b := by
  match h with
  | .refl l => rfl
  | .integer hwide _ => exact absurd hwide (hb _ List.mem_cons_self)
  | .float hwide _ => exact absurd hwide (ha _ List.mem_cons_self)
  | .list hitems => rw [hitems.eq ha hb]
termination_by structural h

theorem AllWrittenAlike.eq {as bs : List Literal} (h : AllWrittenAlike as bs)
    (ha : ∀ x ∈ floatsOfAll as, ¬ x.IsWide) (hb : ∀ x ∈ floatsOfAll bs, ¬ x.IsWide) : as = bs := by
  match h with
  | .nil => rfl
  | .cons hfirst hothers =>
    rw [floatsOfAll, List.forall_mem_append] at ha hb
    rw [hfirst.eq ha.1 hb.1, hothers.eq ha.2 hb.2]
termination_by structural h

end

/-- The text of a literal determines its kind and value, but that a wide float is written without a
fraction and so like an integer. All other floats are written with one. -/
theorem text_eq_text_iff (a b : Literal) :
    (a.text = b.text ↔ WrittenAlike a b) ∧
      ((∀ x ∈ a.floats ++ b.floats, ¬ x.IsWide) → (a.text = b.text ↔ a = b)) ∧
      ∀ x : Binary64, HasFraction (float x).text ↔ ¬ x.IsWide := by
  have halike : a.text = b.text → WrittenAlike a b := fun h =>
    (alike_of_append Text.endsNumber_nil Text.endsNumber_nil (congrArg (String.toList · ++ []) h)).1
  refine ⟨⟨halike, WrittenAlike.text_eq⟩, fun hfloats => ⟨fun h => ?_, fun h => h ▸ rfl⟩,
    fun x => Binary64.hasFraction_iff⟩
  exact (halike h).eq (fun x hx => hfloats x (List.mem_append_left _ hx))
    (fun x hx => hfloats x (List.mem_append_right _ hx))

/-- The number 2.5. -/
def twoAndHalf : Binary64 := ⟨false, 5629499534213120, 1023, by decide, by decide, by decide⟩

theorem text_eq_text_iff_nested :
    (∀ x ∈ (list [.list [.float twoAndHalf], .string "a', 'b"]).floats ++
        (list [.list [.float twoAndHalf], .string "a", .string "b"]).floats, ¬ x.IsWide) ∧
      ((list [.list [.float twoAndHalf], .string "a', 'b"]).text =
          (list [.list [.float twoAndHalf], .string "a", .string "b"]).text ↔
        list [.list [.float twoAndHalf], .string "a', 'b"] =
          list [.list [.float twoAndHalf], .string "a", .string "b"]) := by
  have hfloats : ∀ x ∈ (list [.list [.float twoAndHalf], .string "a', 'b"]).floats ++
      (list [.list [.float twoAndHalf], .string "a", .string "b"]).floats, ¬ x.IsWide := by decide +kernel
  exact ⟨hfloats, (text_eq_text_iff _ _).2.1 hfloats⟩

/-- The number 10^15. -/
def wideNumber : Binary64 := ⟨false, 8000000000000000, 1071, by decide, by decide, by decide⟩

/-- The float 10^15 is written without a fraction, like the integer. -/
theorem text_wide_float : (float wideNumber).text = (integer 1000000000000000).text ∧
    float wideNumber ≠ integer 1000000000000000 ∧ ¬ HasFraction (float wideNumber).text := by
  have hwide : wideNumber.IsWide := by decide +kernel
  exact ⟨by decide +kernel, nofun, fun h => Binary64.hasFraction_iff.mp h hwide⟩

end Literal
end GraphQuery
