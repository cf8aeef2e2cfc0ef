import Mathlib.Data.List.Basic

/-!
# Hash chains

A hash chain is a list of entries in which every entry stores a hash that was made from the hash
before it and from its own content. What the hashes are and how they are made is a parameter:
`hash` is the hash that an entry stores, and `Fits prev entry` says that it was made from `prev`
and the content of the entry.

A verifier walks along the chain and lists the entries that do not fit to the stored hash of the
entry before them (`mismatched`). `forall₂_of_head_eq` is the commitment of the last hash to
everything before it, and `mismatched_tampered` says which entries the verifier lists after
entries of a chain have been edited or removed.
-/

namespace HashChain

open List

variable {Entry Hash : Type*} (hash : Entry → Hash)

/-- The last hash of a chain that starts from `prev`. -/
def head (prev : Hash) : List Entry → Hash
  | [] => prev
  | entry :: entries => head (hash entry) entries

@[simp] theorem head_append (prev : Hash) (xs ys : List Entry) :
    head hash prev (xs ++ ys) = head hash (head hash prev xs) ys := by
  induction xs generalizing prev with
  | nil => rfl
  | cons x xs ih => exact ih (hash x)

variable (Fits : Hash → Entry → Prop)

/-- Every entry fits to the hash before it. -/
def Chained (prev : Hash) : List Entry → Prop
  | [] => True
  | entry :: entries => Fits prev entry ∧ Chained (hash entry) entries

theorem chained_append {prev : Hash} {xs ys : List Entry} :
    Chained hash Fits prev (xs ++ ys) ↔
      Chained hash Fits prev xs ∧ Chained hash Fits (head hash prev xs) ys := by
  induction xs generalizing prev with
  | nil => simp [Chained, head]
  | cons x xs ih =>
    rw [cons_append, Chained, Chained, head, ih, and_assoc]

theorem chained_map (change : Entry → Entry) (hhash : ∀ entry, hash (change entry) = hash entry)
    (hfits : ∀ prev entry, Fits prev (change entry) ↔ Fits prev entry) {prev : Hash}
    {entries : List Entry} :
    (Chained hash Fits prev (entries.map change) ↔ Chained hash Fits prev entries) ∧
      head hash prev (entries.map change) = head hash prev entries := by
  induction entries generalizing prev with
  | nil => exact ⟨Iff.rfl, rfl⟩
  | cons entry entries ih =>
    rw [map_cons, Chained, Chained, hfits, head, head, hhash, ih.1, ih.2]
    exact ⟨Iff.rfl, rfl⟩

theorem forall₂_of_head_eq {Alike : Hash → Hash → Prop} {Same : Entry → Entry → Prop}
    (hinj : ∀ p p' e e', Alike p p' → Fits p e → Fits p' e' → hash e = hash e' →
      p = p' ∧ Same e e')
    {prev prev' : Hash} {xs ys : List Entry} (hlength : xs.length = ys.length)
    (hxs : Chained hash Fits prev xs) (hys : Chained hash Fits prev' ys) (hprev : Alike prev prev')
    (halike : ∀ x ∈ xs, ∀ y ∈ ys, Alike (hash x) (hash y))
    (hhead : head hash prev xs = head hash prev' ys) :
    prev = prev' ∧ List.Forall₂ (fun x y => hash x = hash y ∧ Same x y) xs ys := by
  induction xs generalizing prev prev' ys with
  | nil =>
    cases ys with
    | nil => exact ⟨hhead, .nil⟩
    | cons y ys => cases hlength
  | cons x xs ih =>
    cases ys with
    | nil => cases hlength
    | cons y ys =>
      -- The hypothesis for the tails gives equal hashes here, and these give the rest.
      obtain ⟨hhash, htail⟩ := ih (Nat.succ.inj hlength) hxs.2 hys.2
        (halike x mem_cons_self y mem_cons_self)
        (fun x' hx' y' hy' => halike x' (mem_cons_of_mem _ hx') y'
          (mem_cons_of_mem _ hy')) hhead
      obtain ⟨hsame, hcontent⟩ := hinj prev prev' x y hprev hxs.1 hys.1 hhash
      exact ⟨hsame, .cons ⟨hhash, hcontent⟩ htail⟩

variable [∀ prev entry, Decidable (Fits prev entry)]

/-- The entries that do not fit to the stored hash before them. -/
def mismatched (prev : Hash) : List Entry → List Entry
  | [] => []
  | entry :: entries =>
    if Fits prev entry then mismatched (hash entry) entries
    else entry :: mismatched (hash entry) entries

theorem mismatched_eq_nil_iff {prev : Hash} {entries : List Entry} :
    mismatched hash Fits prev entries = [] ↔ Chained hash Fits prev entries := by
  induction entries generalizing prev with
  | nil => simp [mismatched, Chained]
  | cons entry entries ih =>
    rw [mismatched, Chained]
    split
    next h => simp [h, ih]
    next h => simp [h]

section Tampering

variable {Row : Type*} (original : Row → Entry) (left : Row → Option Entry)
  (edited : Entry → Entry → Bool)

/-- Rows of entries `original` and what is left of them, `left`: the entries that are left over
and were edited or come right after a removed one. `gap` says whether something was removed right
before the list. -/
def disturbed (gap : Bool) (rows : List Row) : List Entry :=
  (rows.zip (gap :: rows.map fun row => (left row).isNone)).filterMap fun (row, afterGap) =>
    (left row).filter fun entry => afterGap || edited (original row) entry

theorem disturbed_cons (gap : Bool) (row : Row) (rows : List Row) :
    disturbed original left edited gap (row :: rows) =
      ((left row).filter fun entry => gap || edited (original row) entry).toList ++
        disturbed original left edited (left row).isNone rows := by
  rw [disturbed, map_cons, zip_cons_cons, filterMap_cons, disturbed]
  dsimp only
  cases (left row).filter fun entry => gap || edited (original row) entry with
  | none => rfl
  | some entry => rfl

theorem disturbed_true_eq_nil_iff {rows : List Row} :
    disturbed original left edited true rows = [] ↔ ∀ row ∈ rows, left row = none := by
  induction rows with
  | nil => simp [disturbed]
  | cons row rows ih =>
    rw [disturbed_cons, append_eq_nil_iff, forall_mem_cons, Option.toList_eq_nil_iff]
    cases hleft : left row with
    | none => simpa using ih
    | some entry => simp

theorem disturbed_false_eq_nil_iff {rows : List Row} :
    disturbed original left edited false rows = [] ↔
      ∃ kept removed, rows = kept ++ removed ∧
        (∀ row ∈ kept, ∃ entry, left row = some entry ∧ edited (original row) entry = false) ∧
        ∀ row ∈ removed, left row = none := by
  induction rows with
  | nil => simp [disturbed]
  | cons row rows ih =>
    rw [disturbed_cons, append_eq_nil_iff, Option.toList_eq_nil_iff]
    cases hleft : left row with
    | none =>
      constructor
      · rintro ⟨-, hrest⟩
        refine ⟨[], row :: rows, rfl, by simp, ?_⟩
        have hremoved := (disturbed_true_eq_nil_iff original left edited).mp hrest
        exact forall_mem_cons.mpr ⟨hleft, hremoved⟩
      · rintro ⟨kept, removed, hrows, hkept, hremoved⟩
        cases kept with
        | nil =>
          rw [nil_append] at hrows
          subst hrows
          have hrest := (forall_mem_cons.mp hremoved).2
          exact ⟨rfl, (disturbed_true_eq_nil_iff original left edited).mpr hrest⟩
        | cons row' kept =>
          obtain ⟨rfl, -⟩ := List.cons.inj hrows
          obtain ⟨entry, hentry, -⟩ := hkept row mem_cons_self
          rw [hleft] at hentry
          cases hentry
    | some entry =>
      constructor
      · rintro ⟨hrow, hrest⟩
        obtain ⟨kept, removed, rfl, hkept, hremoved⟩ := ih.mp hrest
        refine ⟨row :: kept, removed, rfl, forall_mem_cons.mpr ⟨?_, hkept⟩, hremoved⟩
        exact ⟨entry, hleft, by simpa using hrow⟩
      · rintro ⟨kept, removed, hrows, hkept, hremoved⟩
        cases kept with
        | nil =>
          rw [nil_append] at hrows
          subst hrows
          rw [hremoved row mem_cons_self] at hleft
          cases hleft
        | cons row' kept =>
          obtain ⟨rfl, htail⟩ := List.cons.inj hrows
          obtain ⟨⟨entry', hentry', hunedited⟩, hkept⟩ := forall_mem_cons.mp hkept
          obtain rfl := Option.some.inj (hleft.symm.trans hentry')
          exact ⟨by simpa using hunedited, ih.mpr ⟨kept, removed, htail, hkept, hremoved⟩⟩

theorem mismatched_tampered (Possible : Hash → Prop) {rows : List Row}
    (hkeep : ∀ row ∈ rows, ∀ entry ∈ left row, hash entry = hash (original row))
    (hsep : ∀ p q, ∀ row ∈ rows, ∀ entry ∈ left row, Possible p → Possible q →
      Fits p (original row) → (Fits q entry ↔ q = p ∧ edited (original row) entry = false))
    (hpossible : ∀ row ∈ rows, Possible (hash (original row)))
    (hnodup : (rows.map fun row => hash (original row)).Nodup) {p q : Hash} {gap : Bool}
    (hchain : Chained hash Fits p (rows.map original)) (hp : Possible p)
    (hq : Possible q) (hfresh : q ∉ rows.map fun row => hash (original row))
    (hgap : q = p ↔ gap = false) :
    mismatched hash Fits q (rows.filterMap left) = disturbed original left edited gap rows := by
  induction rows generalizing p q gap with
  | nil => rfl
  | cons row rows ih =>
    rw [forall_mem_cons] at hkeep hpossible
    rw [map_cons, nodup_cons] at hnodup
    rw [map_cons, mem_cons, not_or] at hfresh
    have hsepRest := fun p q row' hrow' => hsep p q row' (mem_cons_of_mem _ hrow')
    rw [disturbed_cons]
    cases hleft : left row with
    | none =>
      -- The verifier still compares with `q`, which is not the hash of the removed entry.
      rw [filterMap_cons, hleft, Option.filter_none, Option.toList_none, nil_append]
      exact ih hkeep.2 hsepRest hpossible.2 hnodup.2 hchain.2 hpossible.1 hq hfresh.2
        (iff_of_false hfresh.1 (by simp))
    | some entry =>
      have hhash := hkeep.1 entry hleft
      have hfits := hsep p q row mem_cons_self entry hleft hp hq hchain.1
      have hrest : mismatched hash Fits (hash entry) (rows.filterMap left) =
          disturbed original left edited false rows := by
        rw [hhash]
        exact ih hkeep.2 hsepRest hpossible.2 hnodup.2 hchain.2 hpossible.1 hpossible.1
          hnodup.1 (iff_of_true rfl rfl)
      rw [filterMap_cons, hleft, mismatched, hrest, Option.isNone_some]
      rw [hgap, ← Bool.or_eq_false_iff] at hfits
      by_cases h : (gap || edited (original row) entry) = false
      · rw [if_pos (hfits.mpr h), Option.filter_some, h]
        rfl
      · rw [if_neg (mt hfits.mp h), Option.filter_some, eq_true_of_ne_false h]
        rfl

end Tampering

end HashChain
