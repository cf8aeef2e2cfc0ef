import FirewallManager.Lib.Shlex
import Mathlib

/-!
# Text pasted into a line

`Shlex.lex` as a machine that reads one character at a time (`lex_eq_finish`). The machine gives out
no more plain characters than it reads (`plain_next`), and it drops a character for every word that
it ends and every quoting mode that it enters (`weight_next`).

Text that is pasted between two words of a line becomes a word of its own and leaves the others
alone if it is a plain word (`lex_pasted`). For a line whose plain characters are all kept it has to
be one (`plainWord_of_pasted`).
-/

namespace Shlex

open List

/-- The state of the scanner: the words that have ended, the mode, and the current word in
reverse. -/
structure Scan where
  words : List (List Char)
  mode : Mode
  acc : List Char

/-- Read one character. -/
def Scan.next (scan : Scan) (c : Char) : Scan :=
  match scan.mode with
  | .gap =>
    if isGap c then ⟨scan.words, .gap, []⟩
    else if c == '#' then ⟨scan.words, .comment, []⟩
    else ⟨scan.words, quoteMode c, keep c []⟩
  | .comment => ⟨scan.words, if c == '\n' then .gap else .comment, []⟩
  | .word =>
    if isGap c then ⟨scan.words ++ [scan.acc.reverse], .gap, []⟩
    else ⟨scan.words, quoteMode c, keep c scan.acc⟩
  | .single =>
    if c == '\'' then ⟨scan.words, .word, scan.acc⟩ else ⟨scan.words, .single, c :: scan.acc⟩
  | .double =>
    if c == '\\' then ⟨scan.words, .doubleEscape, scan.acc⟩
    else if c == '"' then ⟨scan.words, .word, scan.acc⟩
    else ⟨scan.words, .double, c :: scan.acc⟩
  | .escape => ⟨scan.words, .word, if c == '\n' then scan.acc else c :: scan.acc⟩
  | .doubleEscape =>
    if c == '$' || c == Char.ofNat 96 || c == '"' || c == '\\' then
      ⟨scan.words, .double, c :: scan.acc⟩
    else if c == '\n' then ⟨scan.words, .double, scan.acc⟩
    else ⟨scan.words, .double, c :: '\\' :: scan.acc⟩

/-- The words at the end of the line, if no quote is open there. -/
def Scan.finish (scan : Scan) : Option (List (List Char)) :=
  match scan.mode with
  | .gap => some scan.words
  | .comment => some scan.words
  | .word => some (scan.words ++ [scan.acc.reverse])
  | _ => none

/-- The scanner is this machine. -/
theorem lex_eq_finish (cs : List Char) (scan : Scan) :
    (lex scan.mode scan.acc cs).map (scan.words ++ ·) = (cs.foldl Scan.next scan).finish := by
  obtain ⟨words, mode, acc⟩ := scan
  induction cs generalizing words mode acc with
  | nil => cases mode <;> simp [lex, Scan.finish]
  | cons c cs ih =>
    dsimp only at ih
    rw [foldl_cons]
    cases mode with
    | gap =>
      simp only [lex, Scan.next]
      split
      next => rw [ih]
      next => split <;> rw [ih]
    | comment => simp only [lex, Scan.next, ih]
    | word =>
      simp only [lex, Scan.next]
      split
      next => simp [← ih, Function.comp_def]
      next => rw [ih]
    | single =>
      simp only [lex, Scan.next]
      split <;> rw [ih]
    | double =>
      simp only [lex, Scan.next]
      split
      next => rw [ih]
      next => split <;> rw [ih]
    | escape => simp only [lex, Scan.next, ih]
    | doubleEscape =>
      simp only [lex, Scan.next]
      split
      next => rw [ih]
      next => split <;> rw [ih]

theorem lex_gap_eq_finish (cs : List Char) :
    lex .gap [] cs = (cs.foldl Scan.next ⟨[], .gap, []⟩).finish := by
  have h := lex_eq_finish cs ⟨[], .gap, []⟩
  simpa using h

/-! ## What is kept -/

/-- The number of plain characters. -/
def plainCount (cs : List Char) : Nat :=
  cs.countP isPlain

/-- The number of plain characters in words. -/
def plainTotal (words : List (List Char)) : Nat :=
  (words.map plainCount).sum

/-- The backslashes that have been read and may still be collected. -/
def Mode.pending : Mode → Nat
  | .doubleEscape => 1
  | _ => 0

/-- What reading a character can do: it ends the current word, empties it or goes on with it, and
collects nothing, the character, or the character and the backslash before it. -/
structure Reads (scan : Scan) (c : Char) (ended : List (List Char)) (mode : Mode)
    (base collected : List Char) : Prop where
  state : scan.next c = ⟨scan.words ++ ended, mode, collected ++ base⟩
  base : ended = [] ∧ (base = scan.acc ∨ base = []) ∨ ended = [scan.acc.reverse] ∧ base = []
  plain : plainCount collected ≤ plainCount [c]
  room : ended.length + collected.length + mode.pending ≤ 1 + scan.mode.pending

theorem pending_quoteMode (c : Char) : (quoteMode c).pending = 0 := by
  unfold quoteMode
  split
  next => rfl
  next =>
    split
    next => rfl
    next => split <;> rfl

theorem keep_cases (c : Char) (acc : List Char) :
    ∃ collected, keep c acc = collected ++ acc ∧ (collected = [] ∨ collected = [c]) := by
  unfold keep
  split
  next => exact ⟨[c], rfl, Or.inr rfl⟩
  next => exact ⟨[], rfl, Or.inl rfl⟩

variable {c : Char}

theorem Reads.drop {scan : Scan} {mode : Mode} {base : List Char}
    (hbase : base = scan.acc ∨ base = []) (h : scan.next c = ⟨scan.words, mode, base⟩)
    (hroom : mode.pending ≤ 1 + scan.mode.pending) : Reads scan c [] mode base [] where
  state := by simp [h]
  base := Or.inl ⟨rfl, hbase⟩
  plain := by simp [plainCount]
  room := by simpa using hroom

theorem Reads.collect {scan : Scan} {mode : Mode}
    (h : scan.next c = ⟨scan.words, mode, c :: scan.acc⟩)
    (hroom : mode.pending ≤ scan.mode.pending) : Reads scan c [] mode scan.acc [c] where
  state := by simp [h]
  base := Or.inl ⟨rfl, Or.inl rfl⟩
  plain := Nat.le_refl _
  room := by simpa using hroom

theorem exists_reads_keep {scan : Scan} {base : List Char}
    (h : scan.next c = ⟨scan.words, quoteMode c, keep c base⟩)
    (hbase : base = scan.acc ∨ base = []) :
    ∃ collected, Reads scan c [] (quoteMode c) base collected := by
  obtain ⟨collected, hkept, hcollected⟩ := keep_cases c base
  refine ⟨collected, by simp [h, hkept], Or.inl ⟨rfl, hbase⟩, ?_, ?_⟩
  · rcases hcollected with rfl | rfl <;> simp [plainCount]
  · rw [pending_quoteMode]
    rcases hcollected with rfl | rfl <;> simp

theorem exists_reads (scan : Scan) (c : Char) :
    ∃ ended mode base collected, Reads scan c ended mode base collected := by
  obtain ⟨words, mode, acc⟩ := scan
  have hsame : acc = acc ∨ acc = [] := Or.inl rfl
  have hempty : [] = acc ∨ ([] : List Char) = [] := Or.inr rfl
  cases mode with
  | gap =>
    by_cases hgap : isGap c = true
    · exact ⟨[], .gap, [], [], .drop hempty (by simp [Scan.next, hgap]) (Nat.zero_le _)⟩
    · by_cases hhash : (c == '#') = true
      · exact ⟨[], .comment, [], [], .drop hempty (by simp [Scan.next, hgap, hhash])
          (Nat.zero_le _)⟩
      · have hnext : Scan.next ⟨words, .gap, acc⟩ c = ⟨words, quoteMode c, keep c []⟩ := by
          simp [Scan.next, hgap, hhash]
        obtain ⟨collected, hread⟩ := exists_reads_keep hnext hempty
        exact ⟨[], quoteMode c, [], collected, hread⟩
  | comment =>
    by_cases hline : (c == '\n') = true
    · exact ⟨[], .gap, [], [], .drop hempty (by simp [Scan.next, hline]) (Nat.zero_le _)⟩
    · exact ⟨[], .comment, [], [], .drop hempty (by simp [Scan.next, hline]) (Nat.zero_le _)⟩
  | word =>
    by_cases hgap : isGap c = true
    · exact ⟨[acc.reverse], .gap, [], [], by simp [Scan.next, hgap], Or.inr ⟨rfl, rfl⟩,
        by simp [plainCount], by simp [Mode.pending]⟩
    · have hnext : Scan.next ⟨words, .word, acc⟩ c = ⟨words, quoteMode c, keep c acc⟩ := by
        simp [Scan.next, hgap]
      obtain ⟨collected, hread⟩ := exists_reads_keep hnext hsame
      exact ⟨[], quoteMode c, acc, collected, hread⟩
  | single =>
    by_cases hquote : (c == '\'') = true
    · exact ⟨[], .word, acc, [], .drop hsame (by simp [Scan.next, hquote]) (Nat.zero_le _)⟩
    · exact ⟨[], .single, acc, [c], .collect (by simp [Scan.next, hquote]) (Nat.zero_le _)⟩
  | double =>
    by_cases hslash : (c == '\\') = true
    · exact ⟨[], .doubleEscape, acc, [], .drop hsame (by simp [Scan.next, hslash])
        (Nat.le_refl 1)⟩
    · by_cases hquote : (c == '"') = true
      · exact ⟨[], .word, acc, [], .drop hsame (by simp [Scan.next, hslash, hquote])
          (Nat.zero_le _)⟩
      · exact ⟨[], .double, acc, [c], .collect (by simp [Scan.next, hslash, hquote])
          (Nat.zero_le _)⟩
  | escape =>
    by_cases hline : (c == '\n') = true
    · exact ⟨[], .word, acc, [], .drop hsame (by simp [Scan.next, hline]) (Nat.zero_le _)⟩
    · exact ⟨[], .word, acc, [c], .collect (by simp [Scan.next, hline]) (Nat.zero_le _)⟩
  | doubleEscape =>
    by_cases hspecial : (c == '$' || c == Char.ofNat 96 || c == '"' || c == '\\') = true
    · exact ⟨[], .double, acc, [c], .collect (if_pos hspecial) (Nat.zero_le _)⟩
    · by_cases hline : (c == '\n') = true
      · exact ⟨[], .double, acc, [], .drop hsame ((if_neg hspecial).trans (if_pos hline))
          (Nat.zero_le _)⟩
      · have hslash : isPlain '\\' = false := rfl
        refine ⟨[], .double, acc, [c, '\\'], ?_, Or.inl ⟨rfl, hsame⟩, ?_, Nat.le_refl 2⟩
        · exact (if_neg hspecial).trans ((if_neg hline).trans (by simp))
        · simp [plainCount, countP_cons, hslash]

/-- The number of plain characters that the scanner holds. -/
def Scan.plain (scan : Scan) : Nat :=
  plainTotal scan.words + plainCount scan.acc

/-- The characters that the scanner holds, with one for the end of each word. -/
def Scan.weight (scan : Scan) : Nat :=
  (scan.words.map fun w => w.length + 1).sum + scan.acc.length + scan.mode.pending

theorem plain_next (scan : Scan) (c : Char) :
    (scan.next c).plain ≤ scan.plain + plainCount [c] := by
  obtain ⟨ended, mode, base, collected, hread⟩ := exists_reads scan c
  have hplain := hread.plain
  rw [hread.state]
  simp only [Scan.plain, plainTotal, plainCount, map_append, sum_append,
    countP_append] at hplain ⊢
  rcases hread.base with ⟨rfl, rfl | rfl⟩ | ⟨rfl, rfl⟩
  · simp only [map_nil, sum_nil]
    omega
  · simp only [map_nil, sum_nil, countP_nil]
    omega
  · simp only [map_cons, map_nil, sum_cons, sum_nil, plainCount,
      countP_reverse, countP_nil]
    omega

theorem weight_next (scan : Scan) (c : Char) : (scan.next c).weight ≤ scan.weight + 1 := by
  obtain ⟨ended, mode, base, collected, hread⟩ := exists_reads scan c
  have hroom := hread.room
  rw [hread.state]
  simp only [Scan.weight, map_append, sum_append, length_append]
  rcases hread.base with ⟨rfl, rfl | rfl⟩ | ⟨rfl, rfl⟩
  · simp only [map_nil, sum_nil, length_nil] at hroom ⊢
    omega
  · simp only [map_nil, sum_nil, length_nil] at hroom ⊢
    omega
  · simp only [map_cons, map_nil, sum_cons, sum_nil, length_reverse,
      length_cons, length_nil] at hroom ⊢
    omega

theorem plain_foldl_next (cs : List Char) (scan : Scan) :
    (cs.foldl Scan.next scan).plain ≤ scan.plain + plainCount cs := by
  induction cs generalizing scan with
  | nil => exact Nat.le_refl _
  | cons c cs ih =>
    have hrest := ih (scan.next c)
    have hfirst := plain_next scan c
    simp only [plainCount, countP_cons, countP_nil] at hrest hfirst ⊢
    rw [foldl_cons]
    omega

theorem weight_foldl_next (cs : List Char) (scan : Scan) :
    (cs.foldl Scan.next scan).weight ≤ scan.weight + cs.length := by
  induction cs generalizing scan with
  | nil => exact Nat.le_refl _
  | cons c cs ih =>
    have hrest := ih (scan.next c)
    have hfirst := weight_next scan c
    rw [foldl_cons, length_cons]
    omega

theorem words_foldl_next (cs : List Char) (scan : Scan) :
    ∃ more, (cs.foldl Scan.next scan).words = scan.words ++ more := by
  induction cs generalizing scan with
  | nil => exact ⟨[], (append_nil _).symm⟩
  | cons c cs ih =>
    obtain ⟨ended, mode, base, collected, hread⟩ := exists_reads scan c
    obtain ⟨more, hmore⟩ := ih (scan.next c)
    refine ⟨ended ++ more, ?_⟩
    rw [foldl_cons, hmore, hread.state, append_assoc]

theorem finish_eq_some {scan : Scan} {words : List (List Char)} (h : scan.finish = some words) :
    plainTotal words ≤ scan.plain ∧ ∃ more, words = scan.words ++ more := by
  obtain ⟨ended, mode, acc⟩ := scan
  cases mode with
  | gap =>
    obtain rfl := Option.some.inj h
    exact ⟨Nat.le_add_right _ _, [], by simp⟩
  | comment =>
    obtain rfl := Option.some.inj h
    exact ⟨Nat.le_add_right _ _, [], by simp⟩
  | word =>
    obtain rfl := Option.some.inj h
    refine ⟨?_, [acc.reverse], rfl⟩
    simp [Scan.plain, plainTotal, plainCount]
  | single => cases h
  | double => cases h
  | escape => cases h
  | doubleEscape => cases h

/-! ## Pasted text -/

theorem lex_pasted {word rest : List Char} (hword : PlainWord word)
    (hrest : rest.head? = some ' ') :
    lex .gap [] (word ++ rest) = (lex .gap [] rest).map (word :: ·) := by
  rw [lex_gap_plain hword, lex_word_end (Or.inr hrest), reverse_reverse]

theorem next_word_plain (hc : isPlain c = true) (words : List (List Char)) (acc : List Char) :
    Scan.next ⟨words, .word, acc⟩ c = ⟨words, .word, c :: acc⟩ := by
  simp [Scan.next, not_gap_of_plain hc, keep, quoteMode_of_plain hc]

theorem keep_of_not_plain (hgap : isGap c = false) (hc : ¬ isPlain c = true) (acc : List Char) :
    keep c acc = acc := by
  have hquote : quoteMode c ≠ .word := by
    intro hword
    refine hc ?_
    unfold quoteMode at hword
    split at hword
    next => cases hword
    next hdouble =>
      split at hword
      next => cases hword
      next hsingle =>
        split at hword
        next => cases hword
        next hslash => simp_all [isPlain]
  exact if_neg hquote

theorem plain_of_scan_word {cs acc final : List Char}
    (h : cs.foldl Scan.next ⟨[], .word, acc⟩ = ⟨[], .word, final⟩)
    (hlength : final.length = acc.length + cs.length) : ∀ c ∈ cs, isPlain c = true := by
  induction cs generalizing acc with
  | nil => simp
  | cons c cs ih =>
    rw [foldl_cons] at h
    rw [length_cons] at hlength
    by_cases hc : isPlain c = true
    · rw [next_word_plain hc] at h
      have hrest := ih h (by rw [length_cons]; omega)
      simpa [hc] using hrest
    · exfalso
      cases hgap : isGap c with
      | true =>
        -- The word has ended, and an ended word stays.
        have hnext : Scan.next ⟨[], .word, acc⟩ c = ⟨[acc.reverse], .gap, []⟩ := by
          simp [Scan.next, hgap]
        obtain ⟨more, hmore⟩ := words_foldl_next cs ⟨[acc.reverse], .gap, []⟩
        rw [hnext] at h
        rw [h] at hmore
        cases hmore
      | false =>
        have hnext : Scan.next ⟨[], .word, acc⟩ c = ⟨[], quoteMode c, acc⟩ := by
          simp [Scan.next, hgap, keep_of_not_plain hgap hc]
        have hweight := weight_foldl_next cs ⟨[], quoteMode c, acc⟩
        rw [← hnext, h, hnext] at hweight
        simp only [Scan.weight, map_nil, sum_nil, pending_quoteMode] at hweight
        omega

theorem plainWord_of_scan {cs final : List Char}
    (h : cs.foldl Scan.next ⟨[], .gap, []⟩ = ⟨[], .word, final⟩)
    (hlength : final.length = cs.length) : PlainWord cs := by
  cases cs with
  | nil => cases h
  | cons c cs =>
    rw [foldl_cons] at h
    rw [length_cons] at hlength
    -- A first character that is dropped cannot be made up for.
    have hkept (mode : Mode) (hmode : mode.pending = 0) :
        Scan.next ⟨[], .gap, []⟩ c ≠ ⟨[], mode, []⟩ := by
      intro hnext
      have hweight := weight_foldl_next cs ⟨[], mode, []⟩
      rw [← hnext, h, hnext] at hweight
      simp only [Scan.weight, map_nil, sum_nil, length_nil, hmode] at hweight
      omega
    have hgap : isGap c = false := by
      by_contra hgap
      exact hkept .gap rfl (by simp [Scan.next, hgap])
    have hhash : (c == '#') = false := by
      by_contra hhash
      exact hkept .comment rfl (by simp [Scan.next, hgap, hhash])
    have hplain : isPlain c = true := by
      by_contra hplain
      refine hkept (quoteMode c) (pending_quoteMode c) ?_
      simp [Scan.next, hgap, hhash, keep_of_not_plain hgap hplain]
    have hnext : Scan.next ⟨[], .gap, []⟩ c = ⟨[], .word, [c]⟩ := by
      simp [Scan.next, hgap, hhash, keep, quoteMode_of_plain hplain]
    rw [hnext] at h
    have hrest := plain_of_scan_word h (by rw [length_singleton]; omega)
    refine ⟨cons_ne_nil _ _, ?_, by simpa using hhash⟩
    simpa [hplain] using hrest

theorem next_blank_plain {mode : Mode} (hmode : mode.inWord) (hword : mode ≠ .word)
    (hc : isPlain c = true) (words : List (List Char)) (acc : List Char) :
    ∃ mode' base, mode'.inWord ∧ plainCount acc ≤ plainCount base ∧
      Scan.next (Scan.next ⟨words, mode, acc⟩ ' ') c = ⟨words, mode', c :: base⟩ := by
  have hquotes := hc
  simp only [isPlain, Bool.and_eq_true, bne_iff_ne, ne_eq] at hquotes
  obtain ⟨⟨⟨-, hdouble⟩, hsingle⟩, hslash⟩ := hquotes
  have hblank (acc : List Char) : plainCount acc ≤ plainCount (' ' :: acc) := by
    simp [plainCount, countP_cons]
  cases mode with
  | gap => exact absurd rfl hmode.1
  | comment => exact absurd rfl hmode.2
  | word => exact absurd rfl hword
  | single =>
    exact ⟨.single, ' ' :: acc, ⟨by decide, by decide⟩, hblank acc, by simp [Scan.next, hsingle]⟩
  | double =>
    exact ⟨.double, ' ' :: acc, ⟨by decide, by decide⟩, hblank acc,
      by simp [Scan.next, hslash, hdouble]⟩
  | escape =>
    exact ⟨.word, ' ' :: acc, ⟨by decide, by decide⟩, hblank acc, next_word_plain hc _ _⟩
  | doubleEscape =>
    refine ⟨.double, ' ' :: '\\' :: acc, ⟨by decide, by decide⟩, ?_, ?_⟩
    · simp only [plainCount, countP_cons]
      omega
    · simp [Scan.next, hslash, hdouble]

section Pasted

variable {pasted rest : List Char} {c : Char} {words : List (List Char)}

theorem words_of_pasted
    (h : (rest.foldl Scan.next (pasted.foldl Scan.next ⟨[], .gap, []⟩)).finish =
      some (pasted :: words)) :
    (pasted.foldl Scan.next ⟨[], .gap, []⟩).words = [] := by
  have hweight := weight_foldl_next pasted ⟨[], .gap, []⟩
  have hstart : Scan.weight ⟨[], .gap, []⟩ = 0 := rfl
  obtain ⟨-, more, hmore⟩ := finish_eq_some h
  obtain ⟨more', hmore'⟩ := words_foldl_next rest (pasted.foldl Scan.next ⟨[], .gap, []⟩)
  rw [hmore', append_assoc] at hmore
  cases hended : (pasted.foldl Scan.next ⟨[], .gap, []⟩).words with
  | nil => rfl
  | cons word ended =>
    rw [hended, cons_append] at hmore
    obtain rfl : pasted = word := (List.cons.inj hmore).1
    rw [Scan.weight, hended, hstart, map_cons, sum_cons] at hweight
    omega

theorem plainCount_of_pasted {scan : Scan} (hscan : scan.words = [])
    (h : (rest.foldl Scan.next scan).finish = some (pasted :: words))
    (hkept : plainTotal words = plainCount rest) : plainCount pasted ≤ plainCount scan.acc := by
  have hread := plain_foldl_next rest scan
  have htotal := (finish_eq_some h).1
  rw [plainTotal, map_cons, sum_cons, ← plainTotal, hkept] at htotal
  rw [Scan.plain, Scan.plain, hscan] at hread
  rw [Scan.plain] at htotal
  simp only [plainTotal, map_nil, sum_nil] at hread htotal
  omega

theorem plainCount_blank_cons (cs : List Char) : plainCount (' ' :: cs) = plainCount cs := by
  have hblank : ¬ isPlain ' ' = true := by decide
  rw [plainCount, countP_cons_of_neg hblank, ← plainCount]

theorem plainCount_spaced (words : List String) :
    plainCount (spaced words) = plainTotal (words.map String.toList) := by
  induction words with
  | nil => rfl
  | cons word words ih =>
    rw [spaced_cons, plainCount_blank_cons, plainCount, countP_append, ← plainCount,
      ← plainCount, ih]
    rfl

theorem not_quoted_of_pasted {mode : Mode} {acc : List Char} (hmode : mode.inWord)
    (hc : isPlain c = true) (hkept : plainTotal words = plainCount (' ' :: c :: rest))
    (h : ((' ' :: c :: rest).foldl Scan.next ⟨[], mode, acc⟩).finish = some (pasted :: words)) :
    mode = .word := by
  by_contra hword
  have hcount : plainCount pasted ≤ plainCount acc := plainCount_of_pasted rfl h hkept
  obtain ⟨mode', base, hmode', hbase, hnext⟩ := next_blank_plain hmode hword hc [] acc
  have hlex := lex_eq_finish rest ⟨[], mode', c :: base⟩
  rw [foldl_cons, foldl_cons, hnext, ← hlex] at h
  obtain ⟨out, hout, heq⟩ := Option.map_eq_some_iff.mp h
  obtain ⟨tail, others, rfl⟩ := lex_extends hmode' hout
  have hfirst : (c :: base).reverse ++ tail = pasted := (List.cons.inj heq).1
  rw [← hfirst] at hcount
  simp only [plainCount, countP_append, countP_reverse, countP_cons, hc,
    if_true] at hcount hbase
  omega

theorem not_comment_of_pasted {acc : List Char} (hc : isPlain c = true)
    (hkept : plainTotal words = plainCount (' ' :: c :: rest))
    (h : ((' ' :: c :: rest).foldl Scan.next ⟨[], .comment, acc⟩).finish =
      some (pasted :: words)) : False := by
  have hline : (c == '\n') = false := by
    by_contra hline
    have hnewline : c = '\n' := by simpa using hline
    rw [hnewline] at hc
    cases hc
  have hnext : Scan.next (Scan.next ⟨[], .comment, acc⟩ ' ') c =
      ⟨[], if c == '\n' then .gap else .comment, []⟩ := rfl
  rw [hline] at hnext
  rw [foldl_cons, foldl_cons, hnext] at h
  have hread := plain_foldl_next rest ⟨[], .comment, []⟩
  have htotal := (finish_eq_some h).1
  rw [plainTotal, map_cons, sum_cons, ← plainTotal, hkept,
    plainCount_blank_cons] at htotal
  simp only [Scan.plain, plainTotal, map_nil, sum_nil, plainCount, countP_nil,
    countP_cons, hc, if_true, Bool.false_eq_true, if_false] at htotal hread
  omega

theorem plainWord_of_pasted (hc : isPlain c = true)
    (hrest : lex .gap [] (' ' :: c :: rest) = some words)
    (hkept : plainTotal words = plainCount (' ' :: c :: rest))
    (h : lex .gap [] (pasted ++ ' ' :: c :: rest) = some (pasted :: words)) :
    PlainWord pasted := by
  rw [lex_gap_eq_finish, foldl_append] at h
  have hwords := words_of_pasted h
  generalize hscan : pasted.foldl Scan.next ⟨[], .gap, []⟩ = scan at h hwords
  obtain ⟨_, mode, acc⟩ := scan
  obtain rfl : _ = [] := hwords
  -- The line after the blank is read from a gap, with or without the pasted word before it.
  have hblank : lex .gap [] (c :: rest) = some words := hrest
  by_cases hmode : mode.inWord
  · obtain rfl := not_quoted_of_pasted hmode hc hkept h
    have hlex := lex_eq_finish (c :: rest) ⟨[acc.reverse], .gap, []⟩
    have hnext : Scan.next ⟨[], .word, acc⟩ ' ' = ⟨[acc.reverse], .gap, []⟩ := rfl
    rw [foldl_cons, hnext, ← hlex, hblank] at h
    obtain rfl : acc.reverse = pasted := by simpa using h
    exact plainWord_of_scan hscan length_reverse.symm
  · by_cases hgap : mode = .gap
    · subst hgap
      have hlex := lex_eq_finish (c :: rest) ⟨[], .gap, []⟩
      have hnext : Scan.next ⟨[], .gap, acc⟩ ' ' = ⟨[], .gap, []⟩ := rfl
      rw [foldl_cons, hnext, ← hlex, hblank] at h
      have hlength := congrArg (Option.map List.length) h
      simp at hlength
    · by_cases hcomment : mode = .comment
      · subst hcomment
        exact absurd h (not_comment_of_pasted hc hkept)
      · exact absurd ⟨hgap, hcomment⟩ hmode

end Pasted

end Shlex
