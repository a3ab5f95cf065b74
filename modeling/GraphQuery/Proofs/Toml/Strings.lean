import GraphQuery.Toml.Text
import Mathlib.Tactic.SplitIfs

/-! Strings read back from their text. Whatever form the writer takes for a string, the reader finds the string again
and leaves what stands behind its closing quotes. -/
namespace GraphQuery.Toml

section Escapes

/-- How a character stands in double quotes: as it is, or as an escape that is no line end behind a backslash. -/
inductive Shown (lines : Bool) (c : Char) : List Char → Prop
  | plain (quote : c ≠ '"') (backslash : c ≠ '\\') (control : isControl c = true → lines = true ∧ c = '\n') :
    Shown lines c [c]
  | escape {body : List Char} (read : ∀ rest, escape? (body ++ rest) = some (c, rest))
    (inside : ∀ rest, newline? ((body ++ rest).dropWhile isSpace) = none) : Shown lines c ('\\' :: body)

/-- The quad of a control character is its code point. -/
theorem codePoint?_quad : ∀ n < 128, n < 0x20 ∨ n = 0x7F →
    ((escapeQuad (Char.ofNat n)).drop 2).length = 4 ∧
      codePoint? ((escapeQuad (Char.ofNat n)).drop 2) = some (Char.ofNat n) := by
  decide +kernel

theorem shown_escapeQuad {c : Char} (h : c.toNat < 0x20 ∨ c.toNat = 0x7F) (lines : Bool) :
    Shown lines c (escapeQuad c) := by
  have hc : Char.ofNat c.toNat = c := Char.ofNat_toNat c
  obtain ⟨hlength, hpoint⟩ := codePoint?_quad c.toNat (by omega) h
  rw [hc] at hlength hpoint
  have hquad : escapeQuad c = '\\' :: 'u' :: (escapeQuad c).drop 2 := rfl
  rw [hquad]
  refine .escape (fun rest => ?_) (fun rest => rfl)
  simp [escape?, escape?.point, hlength, hpoint]

theorem escaped_cons (lines : Bool) (allowed run : Nat) (c : Char) (cs : List Char) :
    escaped lines allowed run (c :: cs) =
      if c = '"' ∧ run < allowed then '"' :: escaped lines allowed (run + 1) cs
      else escaped lines 0 0 [c] ++ escaped lines allowed 0 cs := by
  by_cases hc : c = '"'
  · by_cases hrun : run < allowed <;> simp [escaped, hc, hrun]
  · simp [escaped, hc]

theorem shown_escaped (lines : Bool) (c : Char) : Shown lines c (escaped lines 0 0 [c]) := by
  -- The line end alone depends on whether there are several lines.
  by_cases hn : c = '\n'
  · subst hn
    cases lines with
    | false => exact .escape (fun _ => rfl) (fun _ => rfl)
    | true => exact .plain (by decide) (by decide) fun _ => ⟨rfl, rfl⟩
  by_cases hletter : c ∈ ['"', '\x08', '\t', '\x0C', '\r', '\\']
  · simp only [List.mem_cons, List.not_mem_nil, or_false] at hletter
    obtain rfl | rfl | rfl | rfl | rfl | rfl := hletter <;> exact .escape (fun _ => rfl) (fun _ => rfl)
  simp only [List.mem_cons, List.not_mem_nil, or_false, not_or] at hletter
  obtain ⟨hquote, hb, ht, hf, hr, hbackslash⟩ := hletter
  by_cases hcontrol : c.toNat < 0x20 ∨ c.toNat = 0x7F
  · have htext : escaped lines 0 0 [c] = escapeQuad c := by simp [escaped, *]
    rw [htext]
    exact shown_escapeQuad hcontrol lines
  · have htext : escaped lines 0 0 [c] = [c] := by simp [escaped, *]
    rw [htext]
    exact .plain hquote hbackslash fun h => absurd (by simpa [isControl, ht] using h) hcontrol

end Escapes

section Characters

/-- A character that stands in single quotes stands there as it is. -/
def Plain (lines : Bool) (c : Char) (text : List Char) : Prop :=
  text = [c] ∧ c ≠ '\x27' ∧ (isControl c = true → lines = true ∧ c = '\n')

/-- Characters with what shows them, where quotes stand as they are, but not more than `allowed` in a row; `run` have
been before. -/
inductive Inside (quote : Char) (shows : Char → List Char → Prop) (allowed : Nat) : Nat → List Char → List Char → Prop
  | nil {run : Nat} (hrun : run ≤ allowed) : Inside quote shows allowed run [] []
  | quote {run : Nat} {cs text : List Char} (h : Inside quote shows allowed (run + 1) cs text) :
    Inside quote shows allowed run (quote :: cs) (quote :: text)
  | shown {run : Nat} {c : Char} {cs front text : List Char} (hrun : run ≤ allowed) (hfront : shows c front)
    (h : Inside quote shows allowed 0 cs text) : Inside quote shows allowed run (c :: cs) (front ++ text)

theorem Inside.le {quote : Char} {shows : Char → List Char → Prop} {allowed run : Nat} {cs text : List Char}
    (h : Inside quote shows allowed run cs text) : run ≤ allowed := by
  induction h with
  | nil hrun => exact hrun
  | quote _ ih => exact Nat.le_of_succ_le ih
  | shown hrun => exact hrun

theorem inside_escaped {lines : Bool} {allowed run : Nat} (hrun : run ≤ allowed) (cs : List Char) :
    Inside '"' (Shown lines) allowed run cs (escaped lines allowed run cs) := by
  induction cs generalizing run with
  | nil => exact .nil hrun
  | cons c cs ih =>
    rw [escaped_cons]
    split
    · next h =>
      obtain ⟨rfl, hlt⟩ := h
      exact .quote (ih hlt)
    · exact .shown hrun (shown_escaped lines c) (ih (Nat.zero_le allowed))

theorem le_longestRun (quote : Char) (cs : List Char) (run longest : Nat) :
    run ≤ longestRun quote run longest cs ∧ longest ≤ longestRun quote run longest cs := by
  induction cs generalizing run longest with
  | nil => exact ⟨Nat.le_max_left _ _, Nat.le_max_right _ _⟩
  | cons c cs ih =>
    unfold longestRun
    split
    · have h := ih (run + 1) longest
      omega
    · have h := ih 0 (max run longest)
      omega

theorem inside_plain {lines : Bool} {allowed run longest : Nat} {cs : List Char}
    (hrun : longestRun '\x27' run longest cs ≤ allowed)
    (hplain : ∀ c ∈ cs, isControl c = true → lines = true ∧ c = '\n') :
    Inside '\x27' (Plain lines) allowed run cs cs := by
  induction cs generalizing run longest with
  | nil => exact .nil (Nat.le_trans (le_longestRun _ _ _ _).1 hrun)
  | cons c cs ih =>
    have hle : run ≤ allowed := Nat.le_trans (le_longestRun _ _ _ _).1 hrun
    rw [longestRun] at hrun
    simp only [List.mem_cons, forall_eq_or_imp] at hplain
    split at hrun
    · next hc =>
      subst hc
      exact .quote (ih hrun hplain.2)
    · next hc => exact .shown hle ⟨rfl, hc, hplain.1⟩ (ih hrun hplain.2)

end Characters

section Readers

/-- A reader of strings takes a character from what shows it, which begins with no quote, and with a line end only if
it is one. -/
structure Reads (quote : Char) (shows : Char → List Char → Prop) (read : Nat → List Char → Reading) : Prop where
  quote_ne : quote ≠ '\n' ∧ quote ≠ '\r'
  head {c : Char} {text : List Char} (h : shows c text) : ∃ d tail, text = d :: tail ∧ d ≠ quote ∧
    (d = '\n' ∨ d = '\r' → c = '\n')
  shown {c : Char} {text : List Char} (h : shows c text) (fuel : Nat) (rest : List Char) :
    read (fuel + 1) (text ++ rest) = (read fuel rest).cons c

/-- On one line the first quote closes. -/
structure ReadsLine (quote : Char) (shows : Char → List Char → Prop) (read : Nat → List Char → Reading) : Prop
    extends Reads quote shows read where
  close (fuel : Nat) (rest : List Char) : read (fuel + 1) (quote :: rest) = some ([], rest)

/-- On several lines three quotes close, and a quote that is not the first of three stands for itself. -/
structure ReadsLines (quote : Char) (shows : Char → List Char → Prop) (read : Nat → List Char → Reading) : Prop
    extends Reads quote shows read where
  close (fuel : Nat) (rest : List Char) :
    read (fuel + 1) (quote :: quote :: quote :: rest) = some (closeWith quote rest)
  single (fuel : Nat) {rest : List Char} (h : ∀ tail, rest ≠ quote :: quote :: tail) :
    read (fuel + 1) (quote :: rest) = (read fuel rest).cons quote

variable {quote : Char} {shows : Char → List Char → Prop} {read : Nat → List Char → Reading}
  {allowed run fuel : Nat} {c : Char} {cs text tail rest : List Char}

theorem Reads.length_le (hr : Reads quote shows read) (h : Inside quote shows allowed run cs text) :
    cs.length ≤ text.length := by
  induction h with
  | nil => exact Nat.le_refl _
  | quote _ ih => exact Nat.succ_le_succ ih
  | shown _ hfront _ ih =>
    obtain ⟨d, tail, rfl, -⟩ := hr.head hfront
    simp only [List.length_cons, List.length_append]
    omega

/-- Without quotes as they are a text does not look like the opening of several lines. -/
theorem Reads.ne_quotes (hr : Reads quote shows read) (h : Inside quote shows 0 run cs text)
    (hrest : rest.head? ≠ some quote) (tail : List Char) : text ++ quote :: rest ≠ quote :: quote :: tail := by
  cases h with
  | nil =>
    intro heq
    rw [List.nil_append, List.cons.injEq] at heq
    exact hrest (heq.2 ▸ rfl)
  | quote h => exact absurd h.le (Nat.not_succ_le_zero _)
  | shown _ hfront =>
    obtain ⟨d, tail, rfl, hd, -⟩ := hr.head hfront
    exact fun heq => hd (List.cons.inj heq).1

theorem ReadsLine.read_inside (hr : ReadsLine quote shows read) (h : Inside quote shows 0 run cs text)
    (hfuel : cs.length < fuel) : read fuel (text ++ quote :: rest) = some (cs, rest) := by
  induction h generalizing fuel with
  | nil =>
    obtain ⟨fuel, rfl⟩ := Nat.exists_eq_succ_of_ne_zero (Nat.ne_of_gt hfuel)
    exact hr.close fuel rest
  | quote h => exact absurd h.le (Nat.not_succ_le_zero _)
  | shown _ hfront _ ih =>
    obtain ⟨fuel, rfl⟩ := Nat.exists_eq_succ_of_ne_zero (Nat.ne_of_gt (Nat.zero_lt_of_lt hfuel))
    rw [List.append_assoc, hr.shown hfront, ih (Nat.lt_of_succ_lt_succ hfuel)]
    rfl

theorem closeWith_replicate (hrun : run ≤ 2) (hrest : rest.head? ≠ some quote) :
    closeWith quote (List.replicate run quote ++ rest) = (List.replicate run quote, rest) := by
  have hcases : run = 0 ∨ run = 1 ∨ run = 2 := by omega
  obtain rfl | rfl | rfl := hcases
  all_goals
    match rest with
    | [] => simp [closeWith, List.replicate]
    | [a] => simp_all [closeWith, List.replicate]
    | a :: b :: rest => simp_all [closeWith, List.replicate]

theorem ReadsLines.read_quotes (hr : ReadsLines quote shows read) (hrun : run ≤ 2) (hc : c ≠ quote)
    (h : read fuel (c :: tail) = some (cs, rest)) :
    read (fuel + run) (List.replicate run quote ++ c :: tail) = some (List.replicate run quote ++ cs, rest) := by
  induction run with
  | zero => exact h
  | succ run ih =>
    have hsingle : ∀ more, List.replicate run quote ++ c :: tail ≠ quote :: quote :: more := by
      have hcases : run = 0 ∨ run = 1 := by omega
      obtain rfl | rfl := hcases <;> simp [hc]
    rw [List.replicate_succ, List.cons_append, Nat.add_succ, hr.single _ hsingle, ih (by omega)]
    rfl

/-- The quotes before the text are read with it, since only what comes behind them tells whether they close. -/
theorem ReadsLines.read_inside (hr : ReadsLines quote shows read) (h : Inside quote shows 2 run cs text)
    (hrest : rest.head? ≠ some quote) (hfuel : run + cs.length < fuel) :
    read fuel (List.replicate run quote ++ (text ++ quote :: quote :: quote :: rest)) =
      some (List.replicate run quote ++ cs, rest) := by
  induction h generalizing fuel with
  | @nil run hrun =>
    obtain ⟨fuel, rfl⟩ := Nat.exists_eq_succ_of_ne_zero (Nat.ne_of_gt (Nat.zero_lt_of_lt hfuel))
    have hcomm : List.replicate run quote ++ ([] ++ quote :: quote :: quote :: rest) =
        quote :: quote :: quote :: (List.replicate run quote ++ rest) := by
      have hcases : run = 0 ∨ run = 1 ∨ run = 2 := by omega
      obtain rfl | rfl | rfl := hcases <;> rfl
    rw [hcomm, hr.close, closeWith_replicate hrun hrest, List.append_nil]
  | @quote run cs text h ih =>
    have hcons : ∀ more, List.replicate run quote ++ quote :: more = List.replicate (run + 1) quote ++ more := by
      intro more
      rw [List.replicate_succ', List.append_assoc, List.singleton_append]
    rw [List.length_cons] at hfuel
    rw [List.cons_append, hcons, hcons]
    exact ih (by omega)
  | @shown run c cs front text hrun hfront h ih =>
    obtain ⟨d, tail, rfl, hd, -⟩ := hr.head hfront
    rw [List.length_cons] at hfuel
    obtain ⟨k, rfl⟩ : ∃ k, fuel = k + 1 + run := ⟨fuel - run - 1, by omega⟩
    have hread : read k (text ++ quote :: quote :: quote :: rest) = some (cs, rest) := ih (by omega)
    rw [List.append_assoc, List.cons_append]
    refine hr.read_quotes hrun hd ?_
    rw [← List.cons_append, hr.shown hfront, hread]
    rfl

/-- The line end behind the opening quotes is skipped, and without it there is none to skip. -/
theorem Reads.skipNewline_inside (hr : Reads quote shows read) (h : Inside quote shows allowed 0 cs text) :
    skipNewline ((if cs.contains '\n' then ['\n'] else []) ++ (text ++ quote :: rest)) = text ++ quote :: rest := by
  split
  · rfl
  · next hlines =>
    rw [List.contains_iff_mem] at hlines
    have hhead : ∃ d tail, text ++ quote :: rest = d :: tail ∧ d ≠ '\n' ∧ d ≠ '\r' := by
      cases h with
      | nil => exact ⟨quote, rest, rfl, hr.quote_ne⟩
      | quote => exact ⟨quote, _, rfl, hr.quote_ne⟩
      | shown _ hfront =>
        obtain ⟨d, tail, rfl, -, hd⟩ := hr.head hfront
        have hc := fun hd' => hlines (List.mem_cons.mpr (.inl (hd hd').symm))
        exact ⟨d, _, rfl, fun hn => hc (.inl hn), fun hn => hc (.inr hn)⟩
    obtain ⟨d, tail, htext, hd⟩ := hhead
    rw [List.nil_append, htext]
    simp [skipNewline, newline?, hd]

theorem ReadsLines.read_enclosed (hr : ReadsLines quote shows read) (h : Inside quote shows 2 0 cs text)
    (hrest : rest.head? ≠ some quote) : ∃ body, enclosed quote (cs.contains '\n') text ++ rest =
      quote :: quote :: quote :: body ∧ read ((skipNewline body).length + 1) (skipNewline body) = some (cs, rest) := by
  refine ⟨(if cs.contains '\n' then ['\n'] else []) ++ (text ++ quote :: quote :: quote :: rest), ?_, ?_⟩
  · simp [enclosed, List.replicate]
  · rw [hr.skipNewline_inside h]
    have hle := hr.length_le h
    refine hr.read_inside h hrest ?_
    rw [List.length_append]
    omega

end Readers

section Forms

theorem reads_double {lines : Bool} {read : Nat → List Char → Reading}
    (shown : ∀ {c text}, Shown lines c text → ∀ fuel rest, read (fuel + 1) (text ++ rest) = (read fuel rest).cons c) :
    Reads '"' (Shown lines) read where
  quote_ne := by decide
  shown := shown
  head {c text} h := by
    cases h with
    | plain quote backslash control =>
      refine ⟨c, [], rfl, quote, ?_⟩
      rintro (hc | rfl)
      · exact hc
      · exact (control rfl).2
    | escape => exact ⟨'\\', _, rfl, by decide, nofun⟩

theorem reads_single {lines : Bool} {read : Nat → List Char → Reading}
    (shown : ∀ {c text}, Plain lines c text → ∀ fuel rest, read (fuel + 1) (text ++ rest) = (read fuel rest).cons c) :
    Reads '\x27' (Plain lines) read where
  quote_ne := by decide
  shown := shown
  head {c text} h := by
    obtain ⟨rfl, quote, control⟩ := h
    refine ⟨c, [], rfl, quote, ?_⟩
    rintro (hc | rfl)
    · exact hc
    · exact (control rfl).2

/-- A control character other than a line end is none that stands on several lines as it is. -/
theorem control_lines {c : Char} {lines : Bool} (h : isControl c = true → lines = true ∧ c = '\n') :
    (isControl c && c != '\n') = false ∧ c ≠ '\r' := by
  refine ⟨by simpa using fun hc => (h hc).2, ?_⟩
  rintro rfl
  exact absurd (h rfl).2 (by decide)

theorem readsLine_double : ReadsLine '"' (Shown false) readBasic where
  toReads := reads_double fun {c _} h fuel rest => by
    cases h with
    | plain quote backslash control =>
      have hcontrol : isControl c = false := by simpa using control
      rw [List.singleton_append, readBasic.eq_5 _ _ _ quote backslash, hcontrol]
      rfl
    | escape read _ =>
      rw [List.cons_append, readBasic, read]
      rfl
  close fuel rest := rfl

theorem readsLine_single : ReadsLine '\x27' (Plain false) fun _ => readLiteral where
  toReads := reads_single fun {c _} h fuel rest => by
    obtain ⟨rfl, quote, control⟩ := h
    have hcontrol : isControl c = false := by simpa using control
    rw [List.singleton_append, readLiteral.eq_3 _ _ quote, hcontrol]
    rfl
  close fuel rest := rfl

theorem readsLines_double : ReadsLines '"' (Shown true) readBasicLines where
  toReads := reads_double fun {c _} h fuel rest => by
    cases h with
    | plain quote backslash control =>
      obtain ⟨hcontrol, hreturn⟩ := control_lines control
      rw [List.singleton_append, readBasicLines.eq_6 _ _ _ (fun _ hc _ => quote hc) backslash
        (fun _ hc _ => hreturn hc), hcontrol]
      rfl
    | escape read inside =>
      rw [List.cons_append, readBasicLines, inside, read]
      rfl
  close fuel rest := readBasicLines.eq_3 _ _ (Nat.succ_ne_zero fuel)
  single fuel rest h := readBasicLines.eq_6 fuel '"' rest (fun tail _ => h tail) (by decide) nofun

theorem readsLines_single : ReadsLines '\x27' (Plain true) fun _ => readLiteralLines where
  toReads := reads_single fun {c _} h fuel rest => by
    obtain ⟨rfl, quote, control⟩ := h
    obtain ⟨hcontrol, hreturn⟩ := control_lines control
    rw [List.singleton_append, readLiteralLines.eq_4 _ _ (fun _ hc _ => quote hc) (fun _ hc _ => hreturn hc), hcontrol]
    rfl
  close fuel rest := rfl
  single fuel rest h := readLiteralLines.eq_4 '\x27' rest (fun tail _ => h tail) nofun

variable {cs rest : List Char}

theorem eq_newline_of_any (h : (cs.any fun c => isControl c && c != '\n') = false) :
    ∀ c ∈ cs, isControl c = true → c = '\n' := by
  simpa [List.any_eq_false] using h

theorem inside_of_formOf_literal (h : formOf cs = .literal) : Inside '\x27' (Plain false) 0 0 cs cs := by
  simp only [formOf] at h
  split_ifs at h with hbasic hform
  simp only [Bool.and_eq_true, Bool.not_eq_true', decide_eq_true_eq] at hform
  obtain ⟨⟨hcontrols, hsingles⟩, hlines⟩ := hform
  refine inside_plain (Nat.le_of_eq hsingles) fun c hc hcontrol => ?_
  obtain rfl := eq_newline_of_any hcontrols c hc hcontrol
  rw [List.contains_iff_mem.mpr hc] at hlines
  cases hlines

theorem inside_of_formOf_literalLines (h : formOf cs = .literalLines) : Inside '\x27' (Plain true) 2 0 cs cs := by
  simp only [formOf] at h
  split_ifs at h with hbasic hliteral hlines hform
  simp only [Bool.and_eq_true, Bool.not_eq_true', decide_eq_true_eq] at hform
  exact inside_plain hform.2 fun c hc hcontrol => ⟨rfl, eq_newline_of_any hform.1 c hc hcontrol⟩

/-- A string is read back from its text, behind which no quote stands that could belong to it. -/
theorem readString?_writeChars (hrest : rest.head? ≠ some '"' ∧ rest.head? ≠ some '\x27') :
    readString? (writeChars cs ++ rest) = some (cs, rest) := by
  unfold writeChars
  cases hform : formOf cs with
  | basic =>
    have hinside : Inside '"' (Shown false) 0 0 cs (escaped false 0 0 cs) := inside_escaped (Nat.le_refl 0) cs
    have hle := readsLine_double.length_le hinside
    simp only [List.cons_append, List.append_assoc, List.nil_append]
    rw [readString?.eq_3 _ (readsLine_double.ne_quotes hinside hrest.1)]
    refine readsLine_double.read_inside hinside ?_
    rw [List.length_append]
    omega
  | literal =>
    have hinside := inside_of_formOf_literal hform
    simp only [List.cons_append, List.append_assoc, List.nil_append]
    rw [readString?.eq_4 _ (readsLine_single.ne_quotes hinside hrest.2)]
    exact readsLine_single.read_inside hinside (Nat.lt_succ_self _)
  | basicLines =>
    obtain ⟨body, htext, hread⟩ := readsLines_double.read_enclosed (inside_escaped (Nat.zero_le 2) cs) hrest.1
    dsimp only
    rw [htext]
    exact hread
  | literalLines =>
    obtain ⟨body, htext, hread⟩ := readsLines_single.read_enclosed (inside_of_formOf_literalLines hform) hrest.2
    dsimp only
    rw [htext]
    exact hread

theorem exists_writeChars_eq_cons (cs : List Char) : ∃ quote body, writeChars cs = quote :: body ∧
    (quote = '"' ∨ quote = '\x27') := by
  unfold writeChars
  cases formOf cs
  · exact ⟨_, _, rfl, .inl rfl⟩
  · exact ⟨_, _, rfl, .inr rfl⟩
  · exact ⟨_, _, rfl, .inl rfl⟩
  · exact ⟨_, _, rfl, .inr rfl⟩

end Forms

end GraphQuery.Toml
