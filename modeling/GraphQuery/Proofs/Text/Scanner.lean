import GraphQuery.Proofs.Text.Ends

/-! A scanner of text with quotes in it. It goes from left to right, reads what stands between
single quotes as strings, in which a backslash escapes the character behind it, and what stands
between backticks as names, in which a doubled backtick is one backtick of the name, and takes every
other character by itself. -/
namespace GraphQuery.Text

inductive Token where
  | string (contents : String)
  | name (contents : String)
  | character (c : Char)
  deriving DecidableEq, Repr

namespace Token

def isQuoted : Token → Bool
  | string _ | name _ => true
  | character _ => false

end Token

/-- Where the scanner stands, with what it has read of the string or the name. -/
inductive Scanner.Mode where
  | outside
  | inString (read : List Char)
  | escaping (read : List Char)
  | inName (read : List Char)
  /-- Behind a backtick that ends the name unless another one follows. -/
  | closing (read : List Char)

structure Scanner where
  mode : Scanner.Mode
  tokens : List Token

namespace Scanner

def start : Scanner := ⟨.outside, []⟩

/-- A character outside of all quotes, behind the given tokens. -/
def stepOutside (ts : List Token) (c : Char) : Scanner :=
  if c = '\x27' then ⟨.inString [], ts⟩
  else if c = '\x60' then ⟨.inName [], ts⟩
  else ⟨.outside, ts ++ [.character c]⟩

def step (s : Scanner) (c : Char) : Scanner :=
  match s.mode with
  | .outside => stepOutside s.tokens c
  | .inString read =>
    if c = '\x27' then ⟨.outside, s.tokens ++ [.string (String.ofList read)]⟩
    else if c = '\\' then { s with mode := .escaping read }
    else { s with mode := .inString (read ++ [c]) }
  | .escaping read => { s with mode := .inString (read ++ [c]) }
  | .inName read => { s with mode := if c = '\x60' then .closing read else .inName (read ++ [c]) }
  | .closing read =>
    if c = '\x60' then { s with mode := .inName (read ++ [c]) }
    else stepOutside (s.tokens ++ [.name (String.ofList read)]) c

def run (s : Scanner) (cs : List Char) : Scanner := cs.foldl step s

/-- The tokens, if the text ends here and no quote is open. -/
def finish (s : Scanner) : Option (List Token) :=
  match s.mode with
  | .outside => some s.tokens
  | .closing read => some (s.tokens ++ [.name (String.ofList read)])
  | .inString _ | .escaping _ | .inName _ => none

@[simp] theorem run_nil (s : Scanner) : s.run [] = s := rfl

@[simp] theorem run_cons (s : Scanner) (c : Char) (cs : List Char) : s.run (c :: cs) = (s.step c).run cs :=
  rfl

theorem run_append (s : Scanner) (cs ds : List Char) : s.run (cs ++ ds) = (s.run cs).run ds :=
  List.foldl_append

theorem stepOutside_plain (ts : List Token) {c : Char} (hc : isQuoting c = false) :
    stepOutside ts c = ⟨.outside, ts ++ [.character c]⟩ := by
  simp only [isQuoting, Bool.or_eq_false_iff, beq_eq_false_iff_ne] at hc
  rw [stepOutside, if_neg hc.1.1, if_neg hc.1.2]

/-- A character that is not quoting neither opens nor closes a quote. -/
theorem finish_step_plain (s : Scanner) {c : Char} (hc : isQuoting c = false) :
    (s.step c).finish = s.finish.map (· ++ [.character c]) := by
  obtain ⟨mode, ts⟩ := s
  have hne := hc
  simp only [isQuoting, Bool.or_eq_false_iff, beq_eq_false_iff_ne] at hne
  obtain ⟨⟨hquote, hback⟩, hslash⟩ := hne
  cases mode with
  | outside => simp [step, stepOutside_plain ts hc, finish]
  | inString read => simp [step, hquote, hslash, finish]
  | escaping read => rfl
  | inName read => simp [step, hback, finish]
  | closing read => simp [step, hback, stepOutside_plain _ hc, finish]

theorem finish_run_plain (s : Scanner) {cs : List Char} (h : ∀ c ∈ cs, isQuoting c = false) :
    (s.run cs).finish = s.finish.map (· ++ cs.map .character) := by
  induction cs generalizing s with
  | nil => simp
  | cons c cs ih =>
    rw [List.forall_mem_cons] at h
    rw [run_cons, ih _ h.2, finish_step_plain s h.1, Option.map_map]
    congr 1
    funext ts
    simp

theorem run_plain (ts : List Token) {cs : List Char} (h : ∀ c ∈ cs, isQuoting c = false) :
    (Scanner.mk .outside ts).run cs = ⟨.outside, ts ++ cs.map .character⟩ := by
  induction cs generalizing ts with
  | nil => simp
  | cons c cs ih =>
    rw [List.forall_mem_cons] at h
    have hc : (Scanner.mk .outside ts).step c = ⟨.outside, ts ++ [.character c]⟩ := stepOutside_plain ts h.1
    rw [run_cons, hc, ih _ h.2, List.append_assoc, List.singleton_append, List.map_cons]

/-- Between two tokens a character other than the backtick meets the scanner outside of all quotes. -/
theorem step_of_finish {s : Scanner} {ts : List Token} (h : s.finish = some ts) {c : Char}
    (hc : c ≠ '\x60') : s.step c = stepOutside ts c := by
  obtain ⟨mode, us⟩ := s
  cases mode with
  | outside =>
    obtain rfl : us = ts := by simpa [finish] using h
    rfl
  | closing read =>
    obtain rfl : us ++ [.name (String.ofList read)] = ts := by simpa [finish] using h
    simp [step, hc]
  | inString read => simp [finish] at h
  | escaping read => simp [finish] at h
  | inName read => simp [finish] at h

theorem run_string (ts : List Token) (read cs : List Char) :
    (Scanner.mk (.inString read) ts).run (cs.flatMap stringChar) = ⟨.inString (read ++ cs), ts⟩ := by
  induction cs generalizing read with
  | nil => simp
  | cons c cs ih =>
    have hc : (Scanner.mk (.inString read) ts).run (stringChar c) = ⟨.inString (read ++ [c]), ts⟩ := by
      unfold stringChar
      split
      · rfl
      · next h => simp [step, not_or.mp h]
    rw [List.flatMap_cons, run_append, hc, ih, List.append_assoc, List.singleton_append]

theorem run_name (ts : List Token) (read cs : List Char) :
    (Scanner.mk (.inName read) ts).run (cs.flatMap nameChar) = ⟨.inName (read ++ cs), ts⟩ := by
  induction cs generalizing read with
  | nil => simp
  | cons c cs ih =>
    have hc : (Scanner.mk (.inName read) ts).run (nameChar c) = ⟨.inName (read ++ [c]), ts⟩ := by
      unfold nameChar
      split
      · next h => simp [step, h]
      · next h => simp [step, h]
    rw [List.flatMap_cons, run_append, hc, ih, List.append_assoc, List.singleton_append]

/-- Tokens that were read earlier. -/
def behind (us : List Token) (s : Scanner) : Scanner := { s with tokens := us ++ s.tokens }

theorem behind_start (us : List Token) : start.behind us = ⟨.outside, [] ++ us⟩ := by
  simp [behind, start]

theorem step_behind (us : List Token) (s : Scanner) (c : Char) :
    (s.behind us).step c = (s.step c).behind us := by
  have hout : ∀ ts, stepOutside (us ++ ts) c = (stepOutside ts c).behind us := by
    intro ts
    unfold stepOutside
    split
    · rfl
    · split
      · rfl
      · simp [behind]
  obtain ⟨mode, ts⟩ := s
  cases mode with
  | outside => exact hout ts
  | inString read =>
    simp only [step, behind]
    split
    · simp
    · split <;> rfl
  | escaping read => rfl
  | inName read => rfl
  | closing read =>
    simp only [step, behind]
    split
    · rfl
    · rw [List.append_assoc]
      exact hout _

theorem run_behind (us : List Token) (s : Scanner) (cs : List Char) :
    (s.behind us).run cs = (s.run cs).behind us := by
  induction cs generalizing s with
  | nil => rfl
  | cons c cs ih => rw [run_cons, step_behind, ih, run_cons]

theorem finish_behind (us : List Token) (s : Scanner) : (s.behind us).finish = s.finish.map (us ++ ·) := by
  obtain ⟨mode, ts⟩ := s
  cases mode <;> simp [finish, behind]

end Scanner

/-- The tokens of a text. There are none when it ends within a quote. -/
def scan (s : String) : Option (List Token) := (Scanner.start.run s.toList).finish

/-- Wherever the scanner stands between two tokens, it reads the text as these. -/
def Reads (t : String) (ts : List Token) : Prop :=
  ∀ (s : Scanner) (us : List Token), s.finish = some us → (s.run t.toList).finish = some (us ++ ts)

namespace Reads

variable {t u : String} {ts us : List Token}

theorem scan (h : Reads t ts) : Text.scan t = some ts := h Scanner.start [] rfl

theorem append (ht : Reads t ts) (hu : Reads u us) : Reads (t ++ u) (ts ++ us) := fun s vs hs => by
  rw [String.toList_append, Scanner.run_append, hu _ _ (ht s vs hs), List.append_assoc]

theorem of_plain (h : Plain t) : Reads t (t.toList.map .character) := fun s vs hs => by
  rw [Scanner.finish_run_plain s h, hs, Option.map_some]

theorem character {c : Char} (hc : isQuoting c = false) : Reads (String.singleton c) [.character c] := by
  have h := of_plain (t := String.singleton c) fun d hd => by
    rw [String.toList_singleton, List.mem_singleton] at hd
    exact hd ▸ hc
  rwa [String.toList_singleton] at h

/-- A quoted string is one token. -/
theorem quotedString (contents : String) : Reads (Text.quotedString contents) [.string contents] := by
  intro s vs hs
  have hopen : s.step '\x27' = ⟨.inString [], vs⟩ := Scanner.step_of_finish hs (by decide)
  rw [toList_quotedString, toList_escapedString, Scanner.run_cons, hopen, Scanner.run_append,
    Scanner.run_string, List.nil_append, Scanner.run_cons]
  simp [Scanner.step, Scanner.finish]

/-- A quoted name is one token, as long as a character stands in front of it that keeps it from being
taken for the rest of another name. -/
theorem quotedName {mark : Char} (hmark : isQuoting mark = false) (contents : String) :
    Reads (String.singleton mark ++ Text.quotedName contents) [.character mark, .name contents] := by
  intro s vs hs
  have hback : mark ≠ '\x60' := by
    rintro rfl
    exact absurd hmark (by decide)
  have hmark : s.step mark = ⟨.outside, vs ++ [.character mark]⟩ :=
    (Scanner.step_of_finish hs hback).trans (Scanner.stepOutside_plain vs hmark)
  rw [String.toList_append, String.toList_singleton, toList_quotedName, List.singleton_append,
    Scanner.run_cons, hmark, Scanner.run_cons]
  have hopen : (Scanner.mk .outside (vs ++ [.character mark])).step '\x60' =
      ⟨.inName [], vs ++ [.character mark]⟩ := rfl
  rw [hopen, Scanner.run_append, Scanner.run_name, List.nil_append, Scanner.run_cons]
  simp [Scanner.step, Scanner.finish]

end Reads

theorem isQuoting_of_isBlank {c : Char} (h : isBlank c = true) : isQuoting c = false := by
  rw [← Bool.not_eq_true]
  intro hq
  simp only [isQuoting, Bool.or_eq_true, beq_iff_eq] at hq
  obtain (rfl | rfl) | rfl := hq <;> exact absurd h (by decide)

theorem exists_dropBlank (cs : List Char) :
    ∃ bs : List Char, (∀ c ∈ bs, isQuoting c = false) ∧ cs = bs ++ dropBlank cs :=
  ⟨cs.takeWhile isBlank, fun c hc => isQuoting_of_isBlank (List.all_eq_true.mp List.all_takeWhile c hc),
    List.takeWhile_append_dropWhile.symm⟩

/-- Trimming takes away blanks, and these are outside of all quotes. -/
theorem scan_trimmed {t : String} {ts : List Token} (h : scan t = some ts) :
    ∃ (front back : List Char) (middle : List Token), scan (trimmed t) = some middle ∧
      ts = front.map .character ++ middle ++ back.map .character := by
  obtain ⟨front, hfront, ht⟩ := exists_dropBlank t.toList
  obtain ⟨back, hback, hm⟩ := exists_dropBlank (dropBlank t.toList).reverse
  replace hm : dropBlank t.toList = (trimmed t).toList ++ back.reverse := by
    rw [trimmed, String.toList_ofList, ← List.reverse_append, ← hm, List.reverse_reverse]
  have hback : ∀ c ∈ back.reverse, isQuoting c = false := fun c hc => hback c (List.mem_reverse.mp hc)
  rw [scan, ht, hm, Scanner.run_append, Scanner.start, Scanner.run_plain [] hfront, Scanner.run_append,
    Scanner.finish_run_plain _ hback, ← Scanner.behind_start, Scanner.run_behind, Scanner.finish_behind] at h
  obtain ⟨us, hus, rfl⟩ := Option.map_eq_some_iff.mp h
  obtain ⟨middle, hmiddle, rfl⟩ := Option.map_eq_some_iff.mp hus
  exact ⟨front, back.reverse, middle, hmiddle, rfl⟩

example : scan "'a\\'b'\x60c\x60\x60\x60d" = some [.string "a'b", .name "c\x60", .character 'd'] := by decide
example : scan "'a\\'" = none := by decide

/-- The text is read as tokens of which the given ones are quoted, and none of the others is a quoting
character. -/
def Quotes (t : String) (quoted : List Token) : Prop :=
  ∃ ts, Reads t ts ∧ ts.filter Token.isQuoted = quoted ∧ ∀ c, .character c ∈ ts → isQuoting c = false

namespace Quotes

theorem append {t u : String} {ts us : List Token} (ht : Quotes t ts) (hu : Quotes u us) :
    Quotes (t ++ u) (ts ++ us) := by
  obtain ⟨vs, hread, rfl, hplain⟩ := ht
  obtain ⟨ws, hread', rfl, hplain'⟩ := hu
  refine ⟨vs ++ ws, hread.append hread', List.filter_append _ _, fun c hc => ?_⟩
  exact (List.mem_append.mp hc).elim (hplain c) (hplain' c)

theorem of_plain {t : String} (h : Plain t) : Quotes t [] := by
  refine ⟨_, .of_plain h, ?_, fun c hc => ?_⟩
  · rw [List.filter_map]
    exact List.map_eq_nil_iff.mpr (List.filter_eq_nil_iff.mpr fun _ _ => Bool.false_ne_true)
  · obtain ⟨d, hd, hcd⟩ := List.mem_map.mp hc
    exact Token.character.inj hcd ▸ h d hd

theorem quotedString (contents : String) : Quotes (Text.quotedString contents) [.string contents] :=
  ⟨_, .quotedString contents, rfl, by simp⟩

theorem quotedName (mark : Char) (hmark : isQuoting mark = false) (contents : String) :
    Quotes (String.singleton mark ++ Text.quotedName contents) [.name contents] :=
  ⟨_, .quotedName hmark contents, rfl, by simp [hmark]⟩

theorem join {α : Type} {f : α → String} {g : α → List Token} {xs : List α}
    (h : ∀ x ∈ xs, Quotes (f x) (g x)) : Quotes (String.join (xs.map f)) (xs.flatMap g) := by
  induction xs with
  | nil => exact .of_plain (t := "") (by decide)
  | cons x xs ih =>
    rw [List.forall_mem_cons] at h
    rw [List.map_cons, String.join_cons, List.flatMap_cons]
    exact h.1.append (ih h.2)

theorem intercalate (sep : String) (hsep : Plain sep) {α : Type} {f : α → String} {g : α → List Token}
    {xs : List α} (h : ∀ x ∈ xs, Quotes (f x) (g x)) :
    Quotes (sep.intercalate (xs.map f)) (xs.flatMap g) := by
  induction xs with
  | nil => exact .of_plain (t := "") (by decide)
  | cons x xs ih =>
    rw [List.forall_mem_cons] at h
    rw [List.map_cons, List.flatMap_cons]
    by_cases hxs : xs = []
    · rw [hxs, List.map_nil, String.intercalate_singleton, List.flatMap_nil, List.append_nil]
      exact h.1
    · rw [String.intercalate_cons_of_ne_nil fun hn => hxs (List.map_eq_nil_iff.mp hn)]
      simpa using (h.1.append (.of_plain hsep)).append (ih h.2)

/-- What is quoted in a text stays quoted, with nothing else, when the text is trimmed. -/
theorem scan_trimmed {t : String} {quoted : List Token} (h : Quotes t quoted) :
    ∃ ts, scan (trimmed t) = some ts ∧ ts.filter Token.isQuoted = quoted ∧
      ∀ c, .character c ∈ ts → isQuoting c = false := by
  obtain ⟨ts, hread, rfl, hplain⟩ := h
  obtain ⟨front, back, middle, hmiddle, rfl⟩ := Text.scan_trimmed hread.scan
  refine ⟨middle, hmiddle, ?_, fun c hc => hplain c (by simp [hc])⟩
  have hnone : ∀ cs : List Char, (cs.map Token.character).filter Token.isQuoted = [] := fun cs => by
    simp [Token.isQuoted]
  rw [List.filter_append, List.filter_append, hnone, hnone, List.nil_append, List.append_nil]

end Quotes

end GraphQuery.Text
