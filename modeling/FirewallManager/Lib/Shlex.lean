import Mathlib.Data.List.Basic

/-!
# POSIX word splitting

`split` cuts a command line into words the way a POSIX shell does, without expansions:
blanks, tabs and newlines separate words, a `#` at the start of a word comments out the rest
of the line, single quotes keep everything literal, double quotes keep everything but the
backslash escapes, and an unquoted backslash keeps the next character. An open quote or a
trailing backslash makes the whole split fail.

The lemmas peel words off the front of a line: `lex_plain_space` for a word of plain
characters, `lex_quoted` for a single-quoted word that ends the line. `split_words_quoted`,
`split_words_rest` and `split_spaced` are their forms for whole lines.
-/

namespace Shlex

open List

/-- Where the scanner stands: between words, in a comment, inside a word, or inside one of the
quoting forms. -/
inductive Mode where
  | gap
  | comment
  | word
  | single
  | double
  | escape
  | doubleEscape
  deriving DecidableEq, Repr

/-- Blank, tab and newline separate words. -/
def isGap (c : Char) : Bool :=
  c == ' ' || c == '\t' || c == '\n'

/-- The character is neither a separator nor a quoting character. -/
def isPlain (c : Char) : Bool :=
  !isGap c && c != '"' && c != '\'' && c != '\\'

/-- The mode that a character puts the scanner in, inside a word. -/
def quoteMode (c : Char) : Mode :=
  if c == '"' then .double
  else if c == '\'' then .single
  else if c == '\\' then .escape
  else .word

/-- The character is kept in the word unless it only switches the quoting. -/
def keep (c : Char) (acc : List Char) : List Char :=
  if quoteMode c = .word then c :: acc else acc

/-- The scanner. `acc` holds the current word in reverse. -/
def lex : Mode → List Char → List Char → Option (List (List Char))
  | .gap, _, [] => some []
  | .gap, _, c :: cs =>
    if isGap c then lex .gap [] cs
    else if c == '#' then lex .comment [] cs
    else lex (quoteMode c) (keep c []) cs
  | .comment, _, [] => some []
  | .comment, _, c :: cs => lex (if c == '\n' then .gap else .comment) [] cs
  | .word, acc, [] => some [acc.reverse]
  | .word, acc, c :: cs =>
    if isGap c then (lex .gap [] cs).map (acc.reverse :: ·)
    else lex (quoteMode c) (keep c acc) cs
  | .single, _, [] => none
  | .single, acc, c :: cs => if c == '\'' then lex .word acc cs else lex .single (c :: acc) cs
  | .double, _, [] => none
  | .double, acc, c :: cs =>
    if c == '\\' then lex .doubleEscape acc cs
    else if c == '"' then lex .word acc cs
    else lex .double (c :: acc) cs
  | .escape, _, [] => none
  | .escape, acc, c :: cs => lex .word (if c == '\n' then acc else c :: acc) cs
  | .doubleEscape, _, [] => none
  | .doubleEscape, acc, c :: cs =>
    if c == '$' || c == Char.ofNat 96 || c == '"' || c == '\\' then lex .double (c :: acc) cs
    else if c == '\n' then lex .double acc cs
    -- Before any other character the backslash stands for itself.
    else lex .double (c :: '\\' :: acc) cs

/-- Split a command line into words. -/
def split (line : String) : Option (List String) :=
  (lex .gap [] line.toList).map (List.map String.ofList)

/-- A word that the scanner reads back unchanged: not empty, made of plain characters, and not
the start of a comment. -/
def PlainWord (w : List Char) : Prop :=
  w ≠ [] ∧ (∀ c ∈ w, isPlain c = true) ∧ w.head? ≠ some '#'

/-- A plain word is recognised by one pass over its characters. -/
instance (w : List Char) : Decidable (PlainWord w) :=
  decidable_of_iff (w ≠ [] ∧ w.all isPlain = true ∧ w.head? ≠ some '#') (by simp [PlainWord])

theorem not_gap_of_plain {c : Char} (h : isPlain c = true) : isGap c = false := by
  simp only [isPlain, Bool.and_eq_true, Bool.not_eq_true'] at h
  exact h.1.1.1

theorem quoteMode_of_plain {c : Char} (h : isPlain c = true) : quoteMode c = .word := by
  simp only [isPlain, Bool.and_eq_true, bne_iff_ne, ne_eq] at h
  simp [quoteMode, h.1.1.2, h.1.2, h.2]

variable {w : List Char}

attribute [local simp] lex in
theorem lex_word_plain (h : ∀ c ∈ w, isPlain c = true) (acc rest : List Char) :
    lex .word acc (w ++ rest) = lex .word (w.reverse ++ acc) rest := by
  induction w generalizing acc with
  | nil => rfl
  | cons c w ih =>
    have hc : isPlain c = true := h c (by simp)
    have hrest : ∀ d ∈ w, isPlain d = true := fun d hd => h d (by simp [hd])
    simp [not_gap_of_plain hc, quoteMode_of_plain hc, keep, ih hrest]

theorem lex_gap_plain (h : PlainWord w) (rest : List Char) :
    lex .gap [] (w ++ rest) = lex .word w.reverse rest := by
  obtain ⟨hne, hplain, hhash⟩ := h
  cases w with
  | nil => exact absurd rfl hne
  | cons c w =>
    have hc : isPlain c = true := hplain c (by simp)
    have hnot : (c == '#') = false := by simpa using hhash
    rw [cons_append, lex, not_gap_of_plain hc, hnot, quoteMode_of_plain hc, keep,
      quoteMode_of_plain hc]
    simp only [Bool.false_eq_true, if_false, if_true]
    rw [lex_word_plain (fun d hd => hplain d (by simp [hd]))]
    simp

theorem lex_plain_space (h : PlainWord w) (rest : List Char) :
    lex .gap [] (w ++ ' ' :: rest) = (lex .gap [] rest).map (w :: ·) := by
  rw [lex_gap_plain h, lex]
  simp [isGap]

variable {words : List String}

theorem lex_plain_words (h : ∀ w ∈ words, PlainWord w.toList) (rest : List Char) :
    lex .gap [] (words.flatMap (·.toList ++ [' ']) ++ rest) =
      (lex .gap [] rest).map (words.map String.toList ++ ·) := by
  induction words with
  | nil => simp
  | cons w words ih =>
    rw [flatMap_cons, append_assoc, append_assoc, singleton_append,
      lex_plain_space (h w (by simp)), ih (fun v hv => h v (by simp [hv])), Option.map_map]
    rfl

/-- Inside single quotes, everything up to the closing quote is collected. -/
theorem lex_single (h : '\'' ∉ w) (acc rest : List Char) :
    lex .single acc (w ++ '\'' :: rest) = lex .word (w.reverse ++ acc) rest := by
  induction w generalizing acc with
  | nil => simp [lex]
  | cons c w ih =>
    have hc : (c == '\'') = false := by
      have : c ≠ '\'' := fun heq => h (by simp [heq])
      simpa using this
    rw [cons_append, lex, hc]
    simp only [Bool.false_eq_true, if_false]
    rw [ih (fun hmem => h (by simp [hmem]))]
    simp

theorem lex_word_end {rest : List Char} (h : rest = [] ∨ rest.head? = some ' ')
    (acc : List Char) : lex .word acc rest = (lex .gap [] rest).map (acc.reverse :: ·) := by
  cases rest with
  | nil => rfl
  | cons c cs =>
    obtain rfl : c = ' ' := by simpa using h
    rfl

/-- Inside double quotes, everything without a backslash up to the closing quote is collected. -/
theorem lex_double (h : ∀ c ∈ w, c ≠ '"' ∧ c ≠ '\\') (acc rest : List Char) :
    lex .double acc (w ++ '"' :: rest) = lex .word (w.reverse ++ acc) rest := by
  induction w generalizing acc with
  | nil => simp [lex]
  | cons c w ih =>
    obtain ⟨⟨hquote, hescape⟩, hw⟩ := forall_mem_cons.mp h
    rw [cons_append, lex, if_neg (by simpa using hescape), if_neg (by simpa using hquote),
      ih hw]
    simp

theorem lex_attribute {name value : List Char} (hname : PlainWord name)
    (hvalue : ∀ c ∈ value, c ≠ '"' ∧ c ≠ '\\') (rest : List Char) :
    lex .gap [] (name ++ '"' :: (value ++ '"' :: ' ' :: rest)) =
      (lex .gap [] rest).map ((name ++ value) :: ·) := by
  have hopen (acc cs : List Char) : lex .word acc ('"' :: cs) = lex .double acc cs := rfl
  rw [lex_gap_plain hname, hopen, lex_double hvalue, lex_word_end (Or.inr rfl)]
  simp [lex, isGap]

theorem lex_quoted (h : '\'' ∉ w) :
    lex .gap [] ('\'' :: (w ++ ['\''])) = some [w] := by
  have hquote : lex .gap [] ('\'' :: (w ++ ['\''])) = lex .single [] (w ++ ['\'']) := rfl
  rw [hquote, lex_single h, lex]
  simp

theorem split_words_quoted {line quoted : String} (hwords : ∀ w ∈ words, PlainWord w.toList)
    (hquoted : '\'' ∉ quoted.toList) (hline : line.toList =
      words.flatMap (·.toList ++ [' ']) ++ '\'' :: (quoted.toList ++ ['\''])) :
    split line = some (words ++ [quoted]) := by
  rw [split, hline, lex_plain_words hwords, lex_quoted hquoted]
  simp

/-- Words with a blank before each of them. -/
def spaced (words : List String) : List Char :=
  words.flatMap fun w => ' ' :: w.toList

@[simp] theorem spaced_nil : spaced [] = [] :=
  rfl

@[simp] theorem spaced_cons (w : String) (words : List String) :
    spaced (w :: words) = ' ' :: (w.toList ++ spaced words) :=
  rfl

@[simp] theorem spaced_append (words words' : List String) :
    spaced (words ++ words') = spaced words ++ spaced words' :=
  flatMap_append

/-- Plain words with a blank before each of them are the first words of the line. Empty ones leave
two blanks in a row, and no word. -/
theorem lex_spaced (h : ∀ w ∈ words, w = "" ∨ PlainWord w.toList) {tail : List Char}
    (htail : tail = [] ∨ tail.head? = some ' ') :
    lex .gap [] (spaced words ++ tail) =
      (lex .gap [] tail).map ((words.filter (· ≠ "")).map String.toList ++ ·) := by
  induction words with
  | nil => simp
  | cons w words ih =>
    have hrest := ih fun v hv => h v (mem_cons_of_mem _ hv)
    have hend : spaced words ++ tail = [] ∨ (spaced words ++ tail).head? = some ' ' := by
      cases words with
      | nil => exact htail
      | cons v words => exact Or.inr rfl
    have hskip : lex .gap [] (spaced (w :: words) ++ tail) =
        lex .gap [] (w.toList ++ (spaced words ++ tail)) := by
      rw [spaced_cons, cons_append, append_assoc]
      rfl
    rw [hskip]
    rcases h w (by simp) with rfl | hw
    · exact hrest
    · have hne : w ≠ "" := by
        rintro rfl
        exact hw.1 rfl
      rw [lex_gap_plain hw, lex_word_end hend, hrest, reverse_reverse, Option.map_map]
      simp [hne, Function.comp_def]

/-- A line of words, one blank between each two, starts with those that are not empty. -/
theorem lex_line {first : String} {tail : List Char} (hfirst : PlainWord first.toList)
    (hwords : ∀ w ∈ words, w = "" ∨ PlainWord w.toList)
    (htail : tail = [] ∨ tail.head? = some ' ') :
    lex .gap [] (first.toList ++ (spaced words ++ tail)) =
      (lex .gap [] tail).map ((first :: words.filter (· ≠ "")).map String.toList ++ ·) := by
  have hall : ∀ w ∈ first :: words, w = "" ∨ PlainWord w.toList := by
    intro w hw
    rcases mem_cons.mp hw with rfl | hw
    · exact Or.inr hfirst
    · exact hwords w hw
  have hne : first ≠ "" := by
    rintro rfl
    exact hfirst.1 rfl
  have hlex : lex .gap [] (first.toList ++ (spaced words ++ tail)) =
      lex .gap [] (spaced (first :: words) ++ tail) := by
    rw [spaced_cons, cons_append, append_assoc]
    rfl
  rw [hlex, lex_spaced hall htail, filter_cons_of_pos (by simpa using hne)]

theorem split_spaced {line first : String} {tail : List Char} {last : List (List Char)}
    (hfirst : PlainWord first.toList) (hwords : ∀ w ∈ words, w = "" ∨ PlainWord w.toList)
    (htail : tail = [] ∨ tail.head? = some ' ') (hlast : lex .gap [] tail = some last)
    (hline : line.toList = first.toList ++ (spaced words ++ tail)) :
    split line = some (first :: (words.filter (· ≠ "") ++ last.map String.ofList)) := by
  rw [split, hline, lex_line hfirst hwords htail, hlast]
  simp [Function.comp_def]

theorem split_words_rest {line : String} {rest : List Char}
    (hwords : ∀ w ∈ words, PlainWord w.toList)
    (hline : line.toList = words.flatMap (·.toList ++ [' ']) ++ rest) {all : List String}
    (hsplit : split line = some all) : ∃ more, all = words ++ more := by
  rw [split, hline, lex_plain_words hwords] at hsplit
  cases hrest : lex .gap [] rest with
  | none => simp [hrest] at hsplit
  | some more =>
    refine ⟨more.map String.ofList, ?_⟩
    simpa [hrest] using hsplit.symm

/-- The scanner is inside a word, quoted or not. -/
def Mode.inWord (mode : Mode) : Prop :=
  mode ≠ .gap ∧ mode ≠ .comment

theorem quoteMode_inWord (c : Char) : (quoteMode c).inWord := by
  unfold quoteMode
  split
  next => exact ⟨by decide, by decide⟩
  next =>
    split
    next => exact ⟨by decide, by decide⟩
    next => split <;> exact ⟨by decide, by decide⟩

/-- The first of the words starts with the collected characters. -/
def Extends (acc : List Char) (words : List (List Char)) : Prop :=
  ∃ w rest, words = (acc.reverse ++ w) :: rest

theorem Extends.of_cons {c : Char} {acc : List Char} {words : List (List Char)}
    (h : Extends (c :: acc) words) : Extends acc words := by
  obtain ⟨w, rest, rfl⟩ := h
  exact ⟨c :: w, rest, by simp⟩

/-- What is collected in a word stays the start of it. -/
theorem lex_extends {mode : Mode} (hmode : mode.inWord) {acc cs : List Char}
    {words : List (List Char)} (h : lex mode acc cs = some words) : Extends acc words := by
  induction cs generalizing mode acc with
  | nil =>
    cases mode with
    | gap => exact absurd rfl hmode.1
    | comment => exact absurd rfl hmode.2
    | word =>
      obtain rfl := Option.some.inj h
      exact ⟨[], [], by simp⟩
    | single => cases h
    | double => cases h
    | escape => cases h
    | doubleEscape => cases h
  | cons c cs ih =>
    have hword : Mode.inWord .word := ⟨by decide, by decide⟩
    have hsingle : Mode.inWord .single := ⟨by decide, by decide⟩
    have hdouble : Mode.inWord .double := ⟨by decide, by decide⟩
    have hescape : Mode.inWord .doubleEscape := ⟨by decide, by decide⟩
    cases mode with
    | gap => exact absurd rfl hmode.1
    | comment => exact absurd rfl hmode.2
    | word =>
      rw [lex] at h
      split at h
      next =>
        obtain ⟨rest, -, rfl⟩ := Option.map_eq_some_iff.mp h
        exact ⟨[], rest, by simp⟩
      next =>
        have hkept := ih (quoteMode_inWord c) h
        unfold keep at hkept
        split at hkept
        next => exact hkept.of_cons
        next => exact hkept
    | single =>
      rw [lex] at h
      split at h
      next => exact ih hword h
      next => exact (ih hsingle h).of_cons
    | double =>
      rw [lex] at h
      split at h
      next => exact ih hescape h
      next =>
        split at h
        next => exact ih hword h
        next => exact (ih hdouble h).of_cons
    | escape =>
      rw [lex] at h
      have hnext := ih hword h
      split at hnext
      next => exact hnext
      next => exact hnext.of_cons
    | doubleEscape =>
      rw [lex] at h
      split at h
      next => exact (ih hdouble h).of_cons
      next =>
        split at h
        next => exact ih hdouble h
        next => exact (ih hdouble h).of_cons.of_cons

theorem split_words_start {line start : String} {rest : List Char}
    (hwords : ∀ w ∈ words, PlainWord w.toList) (hstart : PlainWord start.toList)
    (hline : line.toList = words.flatMap (·.toList ++ [' ']) ++ (start.toList ++ rest))
    {all : List String} (hsplit : split line = some all) :
    ∃ tail more, all = words ++ (start ++ tail) :: more := by
  rw [split, hline, lex_plain_words hwords, lex_gap_plain hstart] at hsplit
  cases hrest : lex .word start.toList.reverse rest with
  | none => simp [hrest] at hsplit
  | some found =>
    obtain ⟨tail, more, rfl⟩ := lex_extends ⟨by decide, by decide⟩ hrest
    refine ⟨String.ofList tail, more.map String.ofList, ?_⟩
    simpa [hrest, String.ofList_append, Function.comp_def] using hsplit.symm

end Shlex
