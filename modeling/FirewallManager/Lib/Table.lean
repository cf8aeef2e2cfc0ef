import Mathlib.Data.List.Nodup

/-!
# Keyed tables

A table is a list of rows whose keys are distinct, so a primary-key violation is not a state of
it. The operations are the statements of a relational store: an insert that fails on a taken
key, the two forms of `ON CONFLICT`, an update that keeps keys, and a delete. For each of them
there is one lemma that says which rows the result has.
-/

/-- Rows of type `ρ`, told apart by their keys. -/
structure Table {κ ρ : Type} (key : ρ → κ) where
  rows : List ρ
  nodup : (rows.map key).Nodup

namespace Table

open List

variable {κ ρ : Type} {key : ρ → κ}

/-- The table without rows. -/
def empty : Table key where
  rows := []
  nodup := nodup_nil

/-- The table with one row. -/
def singleton (row : ρ) : Table key where
  rows := [row]
  nodup := nodup_singleton _

/-- The rows that a condition selects. -/
def select (table : Table key) (cond : ρ → Bool) : List ρ :=
  table.rows.filter cond

/-- `DELETE … WHERE`. -/
def delete (table : Table key) (cond : ρ → Bool) : Table key where
  rows := table.rows.filter fun row => !cond row
  nodup := table.nodup.sublist (filter_sublist.map key)

/-- `UPDATE … SET … WHERE`, for a change that keeps keys. -/
def update (table : Table key) (cond : ρ → Bool) (change : ρ → ρ)
    (hkey : ∀ row, key (change row) = key row) : Table key where
  rows := table.rows.map fun row => if cond row then change row else row
  nodup := by
    have hkeys : (table.rows.map fun row => if cond row then change row else row).map key =
        table.rows.map key := by
      rw [map_map]
      refine map_congr_left fun row _ => ?_
      by_cases hcond : cond row = true
      · simp [hcond, hkey]
      · simp [hcond]
    rw [hkeys]
    exact table.nodup

section Keys

variable [DecidableEq κ]

/-- The row with a key. -/
def find? (table : Table key) (k : κ) : Option ρ :=
  (table.select fun row => decide (key row = k)).head?

/-- The key is taken. -/
def has (table : Table key) (k : κ) : Bool :=
  (table.find? k).isSome

theorem has_eq_true_iff {table : Table key} {k : κ} :
    table.has k = true ↔ ∃ row ∈ table.rows, key row = k := by
  simp only [has, find?, isSome_head?, ne_eq, select, filter_eq_nil_iff]
  simp

/-- Add a row whose key is free. -/
def append (table : Table key) (row : ρ) (hfree : table.has (key row) = false) : Table key where
  rows := table.rows ++ [row]
  nodup := by
    rw [map_append, nodup_append]
    refine ⟨table.nodup, nodup_singleton _, ?_⟩
    rintro k hk k' hk' rfl
    obtain ⟨other, hother, rfl⟩ := mem_map.mp hk
    have htaken : table.has (key row) = true :=
      has_eq_true_iff.mpr ⟨other, hother, by simpa using hk'⟩
    rw [hfree] at htaken
    cases htaken

/-- `INSERT`, which fails on a taken key. -/
def insert? (table : Table key) (row : ρ) : Option (Table key) :=
  if h : table.has (key row) = false then some (table.append row h) else none

/-- `INSERT … ON CONFLICT DO NOTHING`. -/
def insertNew (table : Table key) (row : ρ) : Table key :=
  if h : table.has (key row) = false then table.append row h else table

/-- Inserts that skip conflicts, one after the other. -/
def insertAll (table : Table key) (rows : List ρ) : Table key :=
  rows.foldl insertNew table

/-- `INSERT … ON CONFLICT DO UPDATE`: the row with a taken key is changed. -/
def upsert (table : Table key) (row : ρ) (change : ρ → ρ)
    (hkey : ∀ other, key (change other) = key other) : Table key :=
  if h : table.has (key row) = false then table.append row h
  else table.update (fun other => decide (key other = key row)) change hkey

end Keys

variable {table : Table key}

theorem eq_of_key_eq {row other : ρ} (hrow : row ∈ table.rows) (hother : other ∈ table.rows)
    (h : key row = key other) : row = other :=
  inj_on_of_nodup_map table.nodup hrow hother h

variable {cond : ρ → Bool}

@[simp] theorem mem_select {row : ρ} :
    row ∈ table.select cond ↔ row ∈ table.rows ∧ cond row = true :=
  mem_filter

@[simp] theorem mem_delete {row : ρ} :
    row ∈ (table.delete cond).rows ↔ row ∈ table.rows ∧ cond row = false := by
  simp [delete]

theorem select_delete {among : ρ → Bool}
    (hkept : ∀ row ∈ table.rows, among row = true → cond row = false) :
    (table.delete cond).select among = table.select among := by
  rw [select, delete, filter_filter, select]
  refine filter_congr fun row hmem => ?_
  cases hrow : among row with
  | false => rfl
  | true => simp [hkept row hmem hrow]

variable {change : ρ → ρ}

variable {hkey : ∀ row, key (change row) = key row}

theorem update_eq_self (h : ∀ row ∈ table.rows, cond row = false) :
    table.update cond change hkey = table := by
  have hrows : (table.rows.map fun row => if cond row then change row else row) = table.rows := by
    refine (map_congr_left ?_).trans (map_id _)
    intro row hrow
    rw [h row hrow]
    rfl
  cases table with
  | mk rows nodup =>
    unfold update
    congr

theorem map_update {β : Type} {column : ρ → β} (hcolumn : ∀ row, column (change row) = column row) :
    (table.update cond change hkey).rows.map column = table.rows.map column := by
  show (table.rows.map fun row => if cond row then change row else row).map column = _
  rw [map_map]
  refine map_congr_left fun row _ => ?_
  rw [Function.comp_apply]
  split
  · exact hcolumn row
  · rfl

theorem exists_key_update {k : κ} :
    (∃ row ∈ (table.update cond change hkey).rows, key row = k) ↔
      ∃ row ∈ table.rows, key row = k := by
  have hsame (row : ρ) : key (if cond row then change row else row) = key row := by
    split
    · exact hkey row
    · rfl
  simp [update, hsame]

theorem select_update {among : ρ → Bool} (hamong : ∀ row, among (change row) = among row) :
    (table.update cond change hkey).select among =
      (table.select among).map fun row => if cond row then change row else row := by
  have hsame : among ∘ (fun row => if cond row then change row else row) = among := by
    funext row
    by_cases hcond : cond row = true
    · simp [hcond, hamong]
    · simp [hcond]
  rw [select, update, filter_map, hsame, select]

theorem select_update_eq_iff {among : ρ → Bool} (hamong : ∀ row, among (change row) = among row) :
    (table.update cond change hkey).select among = table.select among ↔
      ∀ row ∈ table.select among, cond row = true → change row = row := by
  rw [select_update hamong]
  constructor
  · intro h row hrow hcond
    have hfixed := map_inj_left.mp (h.trans (map_id _).symm) row hrow
    simpa [hcond] using hfixed
  · intro h
    refine (map_congr_left fun row hrow => ?_).trans (map_id _)
    by_cases hcond : cond row = true
    · simp [hcond, h row hrow hcond]
    · simp [hcond]

section Keys

variable [DecidableEq κ]

variable {table : Table key} {row : ρ}

/-- A row that is found is a row with the key. -/
theorem mem_of_find? {k : κ} (h : table.find? k = some row) :
    row ∈ table.rows ∧ key row = k := by
  have hmem := mem_select.mp (mem_of_mem_head? h)
  exact ⟨hmem.1, of_decide_eq_true hmem.2⟩

theorem find?_eq_some_iff {k : κ} :
    table.find? k = some row ↔ row ∈ table.rows ∧ key row = k := by
  constructor
  · exact mem_of_find?
  · rintro ⟨hrow, hkey⟩
    have hhas : table.has k = true := has_eq_true_iff.mpr ⟨row, hrow, hkey⟩
    obtain ⟨other, hother⟩ := Option.isSome_iff_exists.mp hhas
    obtain ⟨hmem, hsame⟩ := mem_of_find? hother
    rw [hother, eq_of_key_eq hmem hrow (hsame.trans hkey.symm)]

theorem find?_update {cond : ρ → Bool} {change : ρ → ρ} (hkey : ∀ row, key (change row) = key row)
    (k : κ) :
    (table.update cond change hkey).find? k =
      (table.find? k).map fun row => if cond row then change row else row := by
  have hamong : ∀ row, decide (key (change row) = k) = decide (key row = k) := by
    intro row
    rw [hkey row]
  rw [find?, select_update hamong, head?_map, find?]

theorem has_update {cond : ρ → Bool} {change : ρ → ρ} (hkey : ∀ row, key (change row) = key row)
    (k : κ) :
    (table.update cond change hkey).has k = table.has k := by
  rw [Bool.eq_iff_iff, has_eq_true_iff, has_eq_true_iff]
  exact exists_key_update

theorem update_perm {others : List ρ} (h : table.rows.Perm (row :: others)) (change : ρ → ρ)
    (hkey : ∀ other, key (change other) = key other) :
    (table.update (fun other => decide (key other = key row)) change hkey).rows.Perm
      (change row :: others) := by
  have hnodup : (key row :: others.map key).Nodup := (h.map key).nodup_iff.mp table.nodup
  have hothers : (others.map fun other =>
      if decide (key other = key row) = true then change other else other) = others := by
    refine (map_congr_left fun other hmem => ?_).trans (map_id _)
    refine if_neg fun hsame => ?_
    have hmem' : key other ∈ others.map key := mem_map_of_mem hmem
    rw [of_decide_eq_true hsame] at hmem'
    exact (nodup_cons.mp hnodup).1 hmem'
  have hmap := h.map fun other =>
    if decide (key other = key row) = true then change other else other
  rw [map_cons, hothers, if_pos (decide_eq_true rfl)] at hmap
  exact hmap

theorem perm_cons_filter {rows : List ρ} (hnodup : (rows.map key).Nodup) (hrow : row ∈ rows) :
    rows.Perm (row :: rows.filter fun other => decide (key other ≠ key row)) := by
  obtain ⟨before, after, rfl⟩ := append_of_mem hrow
  have hmiddle : (before ++ row :: after).Perm (row :: (before ++ after)) := perm_middle
  have hnodup' : (key row :: (before ++ after).map key).Nodup :=
    (hmiddle.map key).nodup_iff.mp hnodup
  have hkept : (before ++ after).filter (fun other => decide (key other ≠ key row)) =
      before ++ after := by
    refine filter_eq_self.mpr fun other hmem => decide_eq_true fun hsame => ?_
    exact (nodup_cons.mp hnodup').1 (hsame ▸ mem_map_of_mem hmem)
  have hfilter := hmiddle.filter fun other => decide (key other ≠ key row)
  rw [filter_cons_of_neg (by simp), hkept] at hfilter
  exact hmiddle.trans (hfilter.symm.cons row)

theorem mem_insertNew {other : ρ} :
    other ∈ (table.insertNew row).rows ↔
      other ∈ table.rows ∨ (table.has (key row) = false ∧ other = row) := by
  unfold insertNew
  split
  next h => simp [append, h]
  next h => simp [h]

theorem has_insertNew_iff {k : κ} :
    (table.insertNew row).has k = true ↔ table.has k = true ∨ key row = k := by
  unfold insertNew
  split
  next h => simp [has_eq_true_iff, append, or_and_right, exists_or]
  next h =>
    refine ⟨Or.inl, ?_⟩
    rintro (htaken | rfl)
    · exact htaken
    · simpa using h

theorem insertNew_of_has (h : table.has (key row) = true) :
    table.insertNew row = table := by
  rw [insertNew, dif_neg (by simp [h])]

theorem has_insertAll_iff {rows : List ρ} {k : κ} :
    (table.insertAll rows).has k = true ↔ table.has k = true ∨ ∃ row ∈ rows, key row = k := by
  induction rows generalizing table with
  | nil => simp [insertAll]
  | cons row rows ih =>
    show ((table.insertNew row).insertAll rows).has k = true ↔ _
    rw [ih, has_insertNew_iff, or_assoc, exists_mem_cons_iff]

theorem insertAll_eq_self_iff {rows : List ρ} :
    table.insertAll rows = table ↔ ∀ row ∈ rows, table.has (key row) = true := by
  constructor
  · intro hsame row hrow
    rw [← hsame]
    exact has_insertAll_iff.mpr (Or.inr ⟨row, hrow, rfl⟩)
  · intro htaken
    induction rows with
    | nil => rfl
    | cons row rows ih =>
      show (table.insertNew row).insertAll rows = table
      rw [insertNew_of_has (htaken row mem_cons_self)]
      exact ih fun other hother => htaken other (mem_cons_of_mem row hother)

theorem select_insertNew {among : ρ → Bool} (h : table.has (key row) = false → among row = false) :
    (table.insertNew row).select among = table.select among := by
  unfold insertNew
  split
  next hfree => simp [select, append, filter_append, h hfree]
  next => rfl

theorem insert?_eq_some_iff {table' : Table key} :
    table.insert? row = some table' ↔
      table.has (key row) = false ∧ table'.rows = table.rows ++ [row] := by
  unfold insert?
  split
  next h =>
    constructor
    · rintro ⟨⟩
      exact ⟨h, rfl⟩
    · rintro ⟨-, hrows⟩
      cases table'
      simp only [append, Option.some.injEq, mk.injEq]
      exact hrows.symm
  next h => simp [h]

theorem exists_key_upsert (table : Table key) (row : ρ) (change : ρ → ρ)
    (hkey : ∀ other, key (change other) = key other) (k : κ) :
    (∃ other ∈ (table.upsert row change hkey).rows, key other = k) ↔
      (∃ other ∈ table.rows, key other = k) ∨ key row = k := by
  unfold upsert
  split
  next h => simp [append, or_and_right, exists_or]
  next h =>
    rw [exists_key_update]
    refine ⟨Or.inl, ?_⟩
    rintro (h' | rfl)
    · exact h'
    · exact has_eq_true_iff.mp (by simpa using h)

theorem find?_upsert {change : ρ → ρ} (hkey : ∀ other, key (change other) = key other) (k : κ) :
    (table.upsert row change hkey).find? k =
      if key row = k then some (((table.find? k).map change).getD row) else table.find? k := by
  unfold upsert
  split
  next hfree =>
    rw [find?, select, append, filter_append]
    by_cases hrow : key row = k
    · have hnone : table.find? k = none := by
        rw [← hrow]
        exact Option.not_isSome_iff_eq_none.mp (Bool.eq_false_iff.mp hfree)
      have hempty : table.rows.filter (fun other => decide (key other = k)) = [] :=
        head?_eq_none_iff.mp hnone
      rw [if_pos hrow, hnone, hempty]
      simp [hrow]
    · rw [if_neg hrow]
      simp [hrow, find?, select]
  next htaken =>
    rw [find?_update]
    cases hfound : table.find? k with
    | none =>
      have hrow : key row ≠ k := by
        rintro rfl
        rw [has, hfound] at htaken
        exact htaken rfl
      rw [if_neg hrow]
      rfl
    | some other =>
      have hother : key other = k := (mem_of_find? hfound).2
      rw [Option.map_some, hother]
      by_cases hrow : key row = k
      · rw [if_pos hrow, if_pos (decide_eq_true hrow.symm)]
        rfl
      · rw [if_neg hrow, if_neg fun hsame => hrow (of_decide_eq_true hsame).symm]

end Keys

end Table
