import GraphQuery.Proofs.Text.Scanner
import Mathlib.Data.List.Forall2

/-! Lexemes of written text. What is quoted is a lexeme, and so is each parenthesis. The rest falls
into words, which end at blanks, at colons and at lexemes that are no words. -/
namespace GraphQuery.Reading

open Text (Token Reads isQuoting)

inductive Lexeme where
  | word (text : String)
  | string (contents : String)
  | name (contents : String)
  | opening
  | closing
  deriving DecidableEq, Repr

/-- The characters that end a word. -/
def isBreak (c : Char) : Bool := c == ' ' || c == ':' || c == '(' || c == ')'

/-- The lexeme of a character that ends a word, which most of them are not. -/
def mark? (c : Char) : Option Lexeme :=
  if c = '(' then some .opening else if c = ')' then some .closing else none

/-- What a word is made of. -/
def IsWord (w : String) : Prop := w ≠ "" ∧ ∀ c ∈ w.toList, isBreak c = false ∧ isQuoting c = false

instance (w : String) : Decidable (IsWord w) :=
  have : Decidable (∀ c ∈ w.toList, isBreak c = false ∧ isQuoting c = false) :=
    List.decidableBAll (fun c => isBreak c = false ∧ isQuoting c = false) w.toList
  inferInstanceAs (Decidable (_ ∧ _))

theorem isBreak_of_isNamePart {c : Char} (h : Text.isNamePart c = true) : isBreak c = false := by
  rw [← Bool.not_eq_true]
  intro hb
  simp only [isBreak, Bool.or_eq_true, beq_iff_eq] at hb
  obtain ((rfl | rfl) | rfl) | rfl := hb <;> exact absurd h (by decide +kernel)

theorem isBreak_of_isNumeral {c : Char} (h : Text.isNumeral c = true) : isBreak c = false := by
  rw [← Bool.not_eq_true]
  intro hb
  simp only [isBreak, Bool.or_eq_true, beq_iff_eq] at hb
  obtain ((rfl | rfl) | rfl) | rfl := hb <;> exact absurd h (by decide)

theorem isWord_identifier (n : Identifier) : IsWord n.text := by
  refine ⟨fun hn => by simpa [hn] using n.valid, fun c hc => ?_⟩
  have h := Text.isNamePart_of_mem n.valid hc
  exact ⟨isBreak_of_isNamePart h, (Text.isNamePart_not_delimiter h).2⟩

theorem isWord_toString (i : Int) : IsWord (toString i) := by
  refine ⟨fun hn => ?_, fun c hc => ?_⟩
  · rw [Int.toString_eq_repr, Int.repr_eq_if] at hn
    split at hn
    · exact Nat.toDigits_ne_nil (Nat.toList_repr ▸ congrArg String.toList hn)
    · simp at hn
  · have h := Text.isNumeral_of_mem_toString_int hc
    exact ⟨isBreak_of_isNumeral h, (Text.isNumeral_not_delimiter h).2⟩

/-- The lexemes so far and the characters of a word that may go on. -/
structure Lexer where
  word : List Char
  lexemes : List Lexeme

namespace Lexer

def start : Lexer := ⟨[], []⟩

/-- The lexemes when the word ends here. -/
def finish (l : Lexer) : List Lexeme :=
  if l.word = [] then l.lexemes else l.lexemes ++ [.word (String.ofList l.word)]

def step (l : Lexer) : Token → Lexer
  | .string s => ⟨[], l.finish ++ [.string s]⟩
  | .name s => ⟨[], l.finish ++ [.name s]⟩
  | .character c =>
    if isBreak c then ⟨[], l.finish ++ (mark? c).toList⟩ else { l with word := l.word ++ [c] }

def run (l : Lexer) (ts : List Token) : Lexer := ts.foldl step l

@[simp] theorem run_nil (l : Lexer) : l.run [] = l := rfl

@[simp] theorem run_cons (l : Lexer) (t : Token) (ts : List Token) : l.run (t :: ts) = (l.step t).run ts := rfl

theorem run_append (l : Lexer) (ts us : List Token) : l.run (ts ++ us) = (l.run ts).run us :=
  List.foldl_append

theorem run_word (l : Lexer) {cs : List Char} (h : ∀ c ∈ cs, isBreak c = false) :
    l.run (cs.map .character) = { l with word := l.word ++ cs } := by
  induction cs generalizing l with
  | nil => simp
  | cons c cs ih =>
    obtain ⟨hc, hcs⟩ := List.forall_mem_cons.mp h
    rw [List.map_cons, run_cons, step, if_neg (by simp [hc]), ih _ hcs]
    simp

end Lexer

/-- The lexemes of a text, unless it ends within a quote. -/
def lexemes (t : String) : Option (List Lexeme) := (Text.scan t).map fun ts => (Lexer.start.run ts).finish

/-- The text is read as the lexemes. It may stand behind a word if it begins with a break, and a word
may stand behind it if it ends with one. -/
def Spells (begins ends : Bool) (t : String) (ls : List Lexeme) : Prop :=
  ∃ ts, Reads t ts ∧ ∀ l : Lexer, begins = true ∨ l.word = [] →
    (l.run ts).finish = l.finish ++ ls ∧ (ends = true → (l.run ts).word = [])

namespace Spells

variable {begins ends begins' ends' : Bool} {t u : String} {ls ms : List Lexeme}

theorem lexemes (h : Spells begins ends t ls) : Reading.lexemes t = some ls := by
  obtain ⟨ts, hread, hlex⟩ := h
  rw [Reading.lexemes, hread.scan, Option.map_some, (hlex Lexer.start (.inr rfl)).1]
  rfl

/-- Text behind text, where one of them has a break between them. -/
theorem append (ht : Spells begins ends t ls) (hu : Spells begins' ends' u ms)
    (between : ends = true ∨ begins' = true) : Spells begins ends' (t ++ u) (ls ++ ms) := by
  obtain ⟨ts, hread, hlex⟩ := ht
  obtain ⟨us, hread', hlex'⟩ := hu
  refine ⟨ts ++ us, hread.append hread', fun l hl => ?_⟩
  obtain ⟨hfinish, hword⟩ := hlex l hl
  obtain ⟨hfinish', hword'⟩ := hlex' (l.run ts) (between.elim (fun h => .inr (hword h)) .inl)
  rw [Lexer.run_append, hfinish', hfinish, List.append_assoc]
  exact ⟨rfl, hword'⟩

/-- Where a break is not needed. -/
theorem inner (h : Spells begins ends t ls) : Spells false false t ls := by
  obtain ⟨ts, hread, hlex⟩ := h
  exact ⟨ts, hread, fun l hl => ⟨(hlex l (.inr (hl.resolve_left Bool.false_ne_true))).1, nofun⟩⟩

theorem empty : Spells true false "" [] :=
  ⟨[], .of_plain (t := "") (by decide), fun l _ => ⟨(List.append_nil _).symm, nofun⟩⟩

theorem word (h : IsWord t) : Spells false false t [.word t] := by
  refine ⟨t.toList.map .character, .of_plain fun c hc => (h.2 c hc).2, fun l hl => ⟨?_, nofun⟩⟩
  have hw : l.word = [] := hl.resolve_left Bool.false_ne_true
  have hne : t.toList ≠ [] := fun hn => h.1 (String.toList_eq_nil_iff.mp hn)
  rw [Lexer.run_word l fun c hc => (h.2 c hc).1, Lexer.finish, Lexer.finish, hw, List.nil_append,
    if_neg hne, if_pos rfl, String.ofList_toList]

/-- A character that ends words. -/
theorem mark {c : Char} (hc : isBreak c = true) (hq : isQuoting c = false) :
    Spells true true (String.singleton c) (mark? c).toList := by
  refine ⟨[.character c], .character hq, fun l _ => ?_⟩
  rw [Lexer.run_cons, Lexer.run_nil, Lexer.step, if_pos hc]
  exact ⟨rfl, fun _ => rfl⟩

theorem blank : Spells true true " " [] := mark (c := ' ') (by decide) (by decide)

theorem opening : Spells true true "(" [.opening] := mark (c := '(') (by decide) (by decide)

theorem closing : Spells true true ")" [.closing] := mark (c := ')') (by decide) (by decide)

theorem string (s : String) : Spells true true (Text.quotedString s) [.string s] :=
  ⟨_, .quotedString s, fun _ _ => ⟨rfl, fun _ => rfl⟩⟩

/-- A quoted name behind a colon. -/
theorem name (s : String) : Spells true true (":" ++ Text.quotedName s) [.name s] := by
  refine ⟨_, @Reads.quotedName ':' (by decide) s, fun l _ => ⟨?_, fun _ => rfl⟩⟩
  exact congrArg (· ++ [Lexeme.name s]) (List.append_nil l.finish)

/-- Text between parentheses. -/
theorem parenthesized (h : Spells begins ends t ls) :
    Spells true true ("(" ++ t ++ ")") (.opening :: ls ++ [.closing]) :=
  (opening.append h.inner (.inl rfl)).append closing (.inr rfl)

/-- Texts in a row, each of which begins and ends with a break. -/
theorem join {α : Type} {f : α → String} {g : α → List Lexeme} {xs : List α}
    (h : ∀ x ∈ xs, Spells true true (f x) (g x)) :
    Spells true false (String.join (xs.map f)) (xs.flatMap g) := by
  induction xs with
  | nil => exact empty
  | cons x xs ih =>
    obtain ⟨hx, hxs⟩ := List.forall_mem_cons.mp h
    rw [List.map_cons, String.join_cons, List.flatMap_cons]
    exact hx.append (ih hxs) (.inl rfl)

end Spells

/-- Texts with a separator between them that begins and ends with a break. -/
theorem Spells.intercalate {sep : String} {seps : List Lexeme} (hsep : Spells true true sep seps)
    {ts : List String} {lss : List (List Lexeme)} (h : List.Forall₂ (Spells false false) ts lss) :
    Spells false false (sep.intercalate ts) (seps.intercalate lss) := by
  induction h with
  | nil => exact Spells.empty.inner
  | @cons t ls ts lss ht hts ih =>
    cases hts with
    | nil =>
      rw [String.intercalate_singleton, List.intercalate_singleton]
      exact ht
    | cons hu hus =>
      rw [String.intercalate_cons_cons, List.intercalate_cons_cons]
      exact (ht.append hsep (.inr rfl)).append ih (.inl rfl)

/-- Words with a blank between them. -/
theorem Spells.words {ws : List String} (h : ∀ w ∈ ws, IsWord w) :
    Spells false false (" ".intercalate ws) (ws.map .word) := by
  induction ws with
  | nil => exact Spells.empty.inner
  | cons w ws ih =>
    obtain ⟨hw, hws⟩ := List.forall_mem_cons.mp h
    by_cases hne : ws = []
    · rw [hne, String.intercalate_singleton]
      exact .word hw
    · rw [String.intercalate_cons_of_ne_nil hne]
      exact ((Spells.word hw).append .blank (.inr rfl)).append (ih hws) (.inl rfl)

example : lexemes "NOT (n:\x60A\x60 AND a = 'b c')" = some [.word "NOT", .opening, .word "n", .name "A",
    .word "AND", .word "a", .word "=", .string "b c", .closing] := by decide

end GraphQuery.Reading
