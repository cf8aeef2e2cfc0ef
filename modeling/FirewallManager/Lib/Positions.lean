import Mathlib.Data.List.Nodup

/-!
# Rows with positions

Rows that belong to an owner, are told apart by a member and have a position among the rows of their
owner. `Distinct` says that no two rows of an owner have one position. There is one lemma for each
way of writing positions: `distinct_append_iff` for a new row, `distinct_moved_iff` for rows that
change their position, and `foldl_write` turns a loop of update statements into such a change. A
loop that numbers a list gives every member its place (`position_numbered`).

`eq_flatMap_blocks` says what positions do to a sorted list: it is the concatenation of its blocks,
one for each position. `mem_takeWhile_iff_of_pairwise` says where a loop over a sorted list stops.
-/

/-- How rows carry their owner, their member and their position. -/
structure Positions (ρ α β : Type) where
  owner : ρ → α
  member : ρ → β
  position : ρ → Int
  place : Int → ρ → ρ
  owner_place : ∀ n row, owner (place n row) = owner row
  member_place : ∀ n row, member (place n row) = member row
  position_place : ∀ n row, position (place n row) = n
  place_place : ∀ n m row, place n (place m row) = place n row

namespace Positions

open List

variable {ρ α β : Type} (P : Positions ρ α β)

/-- No two rows of an owner have one position. -/
def Distinct (rows : List ρ) : Prop :=
  ∀ row ∈ rows, ∀ other ∈ rows, P.owner row = P.owner other →
    P.position row = P.position other → row = other

/-- The rows are compared two by two. -/
instance [DecidableEq ρ] [DecidableEq α] (rows : List ρ) : Decidable (P.Distinct rows) :=
  inferInstanceAs (Decidable (∀ row ∈ rows, ∀ other ∈ rows, P.owner row = P.owner other →
    P.position row = P.position other → row = other))

/-- Owner and member tell rows apart. -/
def Keyed (rows : List ρ) : Prop :=
  ∀ row ∈ rows, ∀ other ∈ rows, P.owner row = P.owner other →
    P.member row = P.member other → row = other

/-- Some rows get a new position. -/
def moved (target : ρ → Option Int) (row : ρ) : ρ :=
  match target row with
  | some n => P.place n row
  | none => row

variable {P} {rows : List ρ}

theorem Distinct.subset {rows' : List ρ} (h : P.Distinct rows) (hsub : ∀ row ∈ rows', row ∈ rows) :
    P.Distinct rows' :=
  fun row hrow other hother => h row (hsub row hrow) other (hsub other hother)

/-- A new row keeps the positions distinct exactly if it has one of its own. -/
theorem distinct_append_iff {row : ρ} (hnew : row ∉ rows) (h : P.Distinct rows) :
    P.Distinct (rows ++ [row]) ↔
      ∀ other ∈ rows, P.owner other = P.owner row → P.position other ≠ P.position row := by
  constructor
  · intro hdistinct other hother howner hposition
    have hsame := hdistinct other (mem_append_left _ hother) row
      (mem_append_right _ mem_cons_self) howner hposition
    exact hnew (hsame ▸ hother)
  · intro hfree a ha b hb howner hposition
    rcases mem_append.mp ha with ha' | ha'
    · rcases mem_append.mp hb with hb' | hb'
      · exact h a ha' b hb' howner hposition
      · rw [mem_singleton.mp hb'] at howner hposition
        exact absurd hposition (hfree a ha' howner)
    · rw [mem_singleton.mp ha'] at howner hposition ⊢
      rcases mem_append.mp hb with hb' | hb'
      · exact absurd hposition.symm (hfree b hb' howner.symm)
      · exact (mem_singleton.mp hb').symm

variable {target : ρ → Option Int}

theorem moved_of_none {row : ρ} (h : target row = none) :
    P.moved target row = row := by
  rw [moved, h]

theorem moved_of_some {row : ρ} {n : Int} (h : target row = some n) :
    P.moved target row = P.place n row := by
  rw [moved, h]

@[simp]
theorem owner_moved (target : ρ → Option Int) (row : ρ) :
    P.owner (P.moved target row) = P.owner row := by
  unfold moved
  split
  · exact P.owner_place _ _
  · rfl

@[simp]
theorem member_moved (target : ρ → Option Int) (row : ρ) :
    P.member (P.moved target row) = P.member row := by
  unfold moved
  split
  · exact P.member_place _ _
  · rfl

theorem position_moved (target : ρ → Option Int) (row : ρ) :
    P.position (P.moved target row) = (target row).getD (P.position row) := by
  unfold moved
  cases target row with
  | none => rfl
  | some n => exact P.position_place n row

theorem distinct_moved_iff (hkeyed : P.Keyed rows) (h : P.Distinct rows)
    (hown : ∀ row ∈ rows, ∀ other ∈ rows, ∀ n, P.owner row = P.owner other →
      target row = some n → target other = some n → row = other) :
    P.Distinct (rows.map (P.moved target)) ↔
      ∀ row ∈ rows, ∀ other ∈ rows, ∀ n, P.owner row = P.owner other → target row = none →
        target other = some n → P.position row ≠ n := by
  constructor
  · intro hdistinct row hrow other hother n howner hstays hmoves hposition
    have himage := hdistinct _ (mem_map_of_mem hrow) _ (mem_map_of_mem hother)
      (by rw [owner_moved, owner_moved, howner])
      (by rw [position_moved, position_moved, hstays, hmoves]; exact hposition)
    have hmember : P.member row = P.member other := by
      rw [← member_moved target row, himage, member_moved]
    rw [hkeyed row hrow other hother howner hmember, hmoves] at hstays
    cases hstays
  · intro hclear image himage image' himage' howner hposition
    obtain ⟨row, hrow, rfl⟩ := mem_map.mp himage
    obtain ⟨other, hother, rfl⟩ := mem_map.mp himage'
    rw [owner_moved, owner_moved] at howner
    rw [position_moved, position_moved] at hposition
    suffices hsame : row = other from congrArg _ hsame
    cases hfirst : target row with
    | none =>
      cases hsecond : target other with
      | none =>
        rw [hfirst, hsecond] at hposition
        exact h row hrow other hother howner hposition
      | some n =>
        rw [hfirst, hsecond] at hposition
        exact absurd hposition (hclear row hrow other hother n howner hfirst hsecond)
    | some n =>
      cases hsecond : target other with
      | none =>
        rw [hfirst, hsecond] at hposition
        exact absurd hposition.symm
          (hclear other hother row hrow n howner.symm hsecond hfirst)
      | some m =>
        rw [hfirst, hsecond] at hposition
        obtain rfl : n = m := hposition
        exact hown row hrow other hother n howner hfirst hsecond

/-! ## Loops of update statements -/

theorem filter_moved [DecidableEq α] (target : ρ → Option Int) (owner : α) (rows : List ρ) :
    (rows.map (P.moved target)).filter (fun row => P.owner row = owner) =
      (rows.filter fun row => P.owner row = owner).map (P.moved target) := by
  have hsame : (fun row => decide (P.owner row = owner)) ∘ P.moved target =
      fun row => decide (P.owner row = owner) := by
    funext row
    rw [Function.comp_apply, owner_moved]
  rw [filter_map, hsame]

theorem map_member_filter_moved [DecidableEq α] (target : ρ → Option Int) (owner : α)
    (rows : List ρ) :
    ((rows.map (P.moved target)).filter fun row => P.owner row = owner).map P.member =
      (rows.filter fun row => P.owner row = owner).map P.member := by
  rw [filter_moved, map_map]
  exact map_congr_left fun row _ => member_moved target row

section Writes

variable [DecidableEq α] [DecidableEq β]

/-- The last position that a list of writes gives to a member. -/
def lastWrite : List (β × Nat) → β → Option Nat
  | [], _ => none
  | (written, n) :: rest, member =>
    (lastWrite rest member).or (if written = member then some n else none)

variable {entries : List (β × Nat)}

theorem mem_of_lastWrite {member : β} {n : Nat} (h : lastWrite entries member = some n) :
    (member, n) ∈ entries := by
  induction entries with
  | nil => cases h
  | cons entry rest ih =>
    rw [lastWrite, Option.or_eq_some_iff] at h
    rcases h with hrest | ⟨-, hfirst⟩
    · exact mem_cons_of_mem _ (ih hrest)
    · split at hfirst
      next hsame =>
        cases hfirst
        rw [← hsame]
        exact mem_cons_self
      next => cases hfirst

theorem lastWrite_of_mem {member : β} {n : Nat} (hnodup : (entries.map Prod.fst).Nodup)
    (h : (member, n) ∈ entries) :
    lastWrite entries member = some n := by
  induction entries with
  | nil => cases h
  | cons entry rest ih =>
    rw [map_cons, nodup_cons] at hnodup
    rw [lastWrite]
    rcases mem_cons.mp h with rfl | hrest
    · have hnone : lastWrite rest member = none := by
        refine Option.eq_none_iff_forall_not_mem.mpr ?_
        intro k hk
        have hmem : (member, k) ∈ rest := mem_of_lastWrite hk
        exact hnodup.1 (mem_map.mpr ⟨_, hmem, rfl⟩)
      rw [hnone, if_pos rfl, Option.none_or]
    · rw [ih hnodup.2 hrest, Option.some_or]

/-- The place of a member in a list. -/
def rank (members : List β) (member : β) : Nat :=
  (lastWrite members.zipIdx member).getD 0

variable {members : List β}

theorem lastWrite_zipIdx (hnodup : members.Nodup) {member : β} (h : member ∈ members) :
    lastWrite members.zipIdx member = some (rank members member) := by
  have hfst : (members.zipIdx.map Prod.fst).Nodup := by rwa [zipIdx_map_fst]
  obtain ⟨n, hn⟩ : ∃ n, (member, n) ∈ members.zipIdx := by
    rw [← zipIdx_map_fst 0 members] at h
    obtain ⟨⟨found, n⟩, hmem, rfl⟩ := mem_map.mp h
    exact ⟨n, hmem⟩
  rw [rank, lastWrite_of_mem hfst hn, Option.getD_some]

theorem rank_inj (hnodup : members.Nodup) {a b : β} (ha : a ∈ members) (hb : b ∈ members)
    (h : rank members a = rank members b) : a = b := by
  have hsnd : (members.zipIdx.map Prod.snd).Nodup := by
    rw [zipIdx_map_snd]
    exact nodup_range'
  have hfirst := mem_of_lastWrite (lastWrite_zipIdx hnodup ha)
  have hsecond := mem_of_lastWrite (lastWrite_zipIdx hnodup hb)
  exact congrArg Prod.fst (inj_on_of_nodup_map hsnd hfirst hsecond h)

theorem pairwise_rank (hnodup : members.Nodup) :
    members.Pairwise fun a b => rank members a < rank members b := by
  have hfst : (members.zipIdx.map Prod.fst).Nodup := by rwa [zipIdx_map_fst]
  have hsnd : members.zipIdx.Pairwise fun a b => a.2 < b.2 := by
    rw [← pairwise_map (R := (· < ·)), zipIdx_map_snd]
    exact pairwise_lt_range'
  have hrank : ∀ entry ∈ members.zipIdx, rank members entry.1 = entry.2 := by
    rintro ⟨member, n⟩ hentry
    rw [rank, lastWrite_of_mem hfst hentry, Option.getD_some]
  have hentries : members.zipIdx.Pairwise fun a b => rank members a.1 < rank members b.1 := by
    refine hsnd.imp_of_mem ?_
    intro a b ha hb hlt
    rwa [hrank a ha, hrank b hb]
  rwa [← pairwise_map (R := fun a b => rank members a < rank members b),
    zipIdx_map_fst] at hentries

variable (P)

/-- Where a list of writes puts the rows of an owner. -/
def targetOf (owner : α) (entries : List (β × Nat)) (row : ρ) : Option Int :=
  if P.owner row = owner then (lastWrite entries (P.member row)).map Int.ofNat else none

/-- One update statement. -/
def write (owner : α) (entry : β × Nat) (row : ρ) : ρ :=
  if P.owner row = owner ∧ P.member row = entry.1 then P.place entry.2 row else row

/-- No row that the list leaves alone has a position that the list gives to another row. -/
def Clear (owner : α) (entries : List (β × Nat)) (rows : List ρ) : Prop :=
  ∀ row ∈ rows, ∀ other ∈ rows, ∀ n, P.owner row = owner → P.owner other = owner →
    lastWrite entries (P.member row) = none → lastWrite entries (P.member other) = some n →
    P.position row ≠ n

variable {P}

theorem targetOf_of_owner {owner : α} {row : ρ} (h : P.owner row = owner)
    (entries : List (β × Nat)) :
    P.targetOf owner entries row = (lastWrite entries (P.member row)).map Int.ofNat :=
  if_pos h

theorem targetOf_of_ne {owner : α} {row : ρ} (h : P.owner row ≠ owner) :
    P.targetOf owner entries row = none :=
  if_neg h

theorem filter_moved_of_ne {owner other : α} (hne : other ≠ owner) (entries : List (β × Nat))
    (rows : List ρ) :
    (rows.map (P.moved (P.targetOf owner entries))).filter (fun row => P.owner row = other) =
      rows.filter fun row => P.owner row = other := by
  rw [filter_moved]
  refine (map_congr_left ?_).trans (map_id _)
  intro row hrow
  have howner : P.owner row = other := of_decide_eq_true (mem_filter.mp hrow).2
  exact moved_of_none (targetOf_of_ne (howner ▸ hne))

theorem position_numbered (hnodup : members.Nodup) {owner : α} {rows : List ρ}
    (hall : ∀ row ∈ rows, P.owner row = owner → P.member row ∈ members) {row : ρ}
    (hrow : row ∈ (rows.map (P.moved (P.targetOf owner members.zipIdx))).filter fun row =>
      P.owner row = owner) :
    P.member row ∈ members ∧ P.position row = rank members (P.member row) := by
  rw [filter_moved] at hrow
  obtain ⟨old, hold, rfl⟩ := mem_map.mp hrow
  obtain ⟨hmem, howner⟩ := mem_filter.mp hold
  have howner' : P.owner old = owner := of_decide_eq_true howner
  have hmember := hall old hmem howner'
  rw [member_moved, position_moved, targetOf_of_owner howner', lastWrite_zipIdx hnodup hmember]
  exact ⟨hmember, rfl⟩

/-- An update statement and the rest of the loop. -/
theorem moved_write (owner : α) (entry : β × Nat) (rest : List (β × Nat)) (row : ρ) :
    P.moved (P.targetOf owner rest) (P.write owner entry row) =
      P.moved (P.targetOf owner (entry :: rest)) row := by
  by_cases howner : P.owner row = owner
  · have htarget := targetOf_of_owner howner (entry :: rest)
    by_cases hmember : P.member row = entry.1
    · have hwrite : P.write owner entry row = P.place entry.2 row := if_pos ⟨howner, hmember⟩
      have howner' : P.owner (P.place entry.2 row) = owner := (P.owner_place _ _).trans howner
      have hrest := targetOf_of_owner howner' rest
      rw [P.member_place] at hrest
      rw [lastWrite, if_pos hmember.symm] at htarget
      rw [hwrite]
      cases hlast : lastWrite rest (P.member row) with
      | none =>
        rw [hlast] at hrest htarget
        rw [moved_of_none hrest, moved_of_some htarget]
        rfl
      | some n =>
        rw [hlast] at hrest htarget
        rw [moved_of_some hrest, moved_of_some htarget, P.place_place]
    · have hwrite : P.write owner entry row = row := if_neg fun hboth => hmember hboth.2
      rw [lastWrite, if_neg (Ne.symm hmember), Option.or_none,
        ← targetOf_of_owner howner] at htarget
      rw [hwrite, moved, moved, htarget]
  · have hwrite : P.write owner entry row = row := if_neg fun hboth => howner hboth.1
    rw [hwrite, moved_of_none (targetOf_of_ne howner), moved_of_none (targetOf_of_ne howner)]

/-- A loop of update statements moves each row to its last position. -/
theorem foldl_write (owner : α) (entries : List (β × Nat)) (rows : List ρ) :
    entries.foldl (fun rows entry => rows.map (P.write owner entry)) rows =
      rows.map (P.moved (P.targetOf owner entries)) := by
  induction entries generalizing rows with
  | nil =>
    refine ((map_congr_left fun row _ => ?_).trans (map_id _)).symm
    refine moved_of_none ?_
    rw [targetOf]
    exact ite_self none
  | cons entry rest ih =>
    rw [foldl_cons, ih, map_map]
    exact map_congr_left fun row _ => moved_write owner entry rest row

theorem distinct_writes_iff {owner : α} (hkeyed : P.Keyed rows) (h : P.Distinct rows)
    (hpositions : (entries.map Prod.snd).Nodup) :
    P.Distinct (rows.map (P.moved (P.targetOf owner entries))) ↔ P.Clear owner entries rows := by
  have hown : ∀ row ∈ rows, ∀ other ∈ rows, ∀ n, P.owner row = P.owner other →
      P.targetOf owner entries row = some n → P.targetOf owner entries other = some n →
      row = other := by
    intro row hrow other hother n howner hfirst hsecond
    unfold targetOf at hfirst hsecond
    split at hfirst
    next howns =>
      rw [← howner, if_pos howns] at hsecond
      obtain ⟨k, hk, rfl⟩ := Option.map_eq_some_iff.mp hfirst
      obtain ⟨k', hk', hcast⟩ := Option.map_eq_some_iff.mp hsecond
      obtain rfl := Int.ofNat.inj hcast
      have hentry := inj_on_of_nodup_map hpositions (mem_of_lastWrite hk)
        (mem_of_lastWrite hk') rfl
      exact hkeyed row hrow other hother howner (congrArg Prod.fst hentry)
    next => cases hfirst
  rw [distinct_moved_iff hkeyed h hown]
  constructor
  · intro hclear row hrow other hother n howner howner' hstays hmoves
    refine hclear row hrow other hother n (howner.trans howner'.symm) ?_ ?_
    · rw [targetOf_of_owner howner, hstays]
      rfl
    · rw [targetOf_of_owner howner', hmoves]
      rfl
  · intro hclear row hrow other hother n howner hstays hmoves
    unfold targetOf at hstays hmoves
    split at hmoves
    next howns =>
      rw [howner, if_pos howns] at hstays
      obtain ⟨k, hk, rfl⟩ := Option.map_eq_some_iff.mp hmoves
      exact hclear row hrow other hother k (howner.trans howns) howns
        (Option.map_eq_none_iff.mp hstays) hk
    next => cases hmoves

end Writes

end Positions

/-! ## Blocks -/

section Blocks

variable {α β : Type} [DecidableEq β] {key : α → β} {l : List α}

theorem eq_filter_append_filter {p : α → Bool}
    (h : l.Pairwise fun a b => p b = true → p a = true) :
    l = l.filter p ++ l.filter fun a => !p a := by
  induction l with
  | nil => rfl
  | cons a l ih =>
    rw [List.pairwise_cons] at h
    cases ha : p a with
    | true =>
      rw [List.filter_cons_of_pos ha, List.filter_cons_of_neg (by simp [ha]), List.cons_append,
        ← ih h.2]
    | false =>
      have hnone : l.filter p = [] := by
        rw [List.filter_eq_nil_iff]
        intro b hb hpb
        rw [h.1 b hb hpb] at ha
        cases ha
      have hall : (l.filter fun b => !p b) = l := by
        have hrest := ih h.2
        rwa [hnone, List.nil_append, eq_comm] at hrest
      rw [List.filter_cons_of_neg (by simp [ha]), List.filter_cons_of_pos (by simp [ha]), hnone,
        hall, List.nil_append]

theorem eq_flatMap_blocks {rank : β → Int} {keys : List β}
    (hkeys : keys.Pairwise fun j k => rank j < rank k) (hmem : ∀ a ∈ l, key a ∈ keys)
    (hsorted : l.Pairwise fun a b => rank (key a) ≤ rank (key b)) :
    l = keys.flatMap fun k => l.filter fun a => key a = k := by
  induction keys generalizing l with
  | nil =>
    cases l with
    | nil => rfl
    | cons a l => cases hmem a List.mem_cons_self
  | cons k keys ih =>
    rw [List.pairwise_cons] at hkeys
    have hfirst : l.Pairwise fun a b =>
        decide (key b = k) = true → decide (key a = k) = true := by
      refine hsorted.imp_of_mem ?_
      intro a b ha _ hle hb
      rw [decide_eq_true_eq] at hb ⊢
      rcases List.mem_cons.mp (hmem a ha) with hsame | hlater
      · exact hsame
      · have hlt := hkeys.1 _ hlater
        rw [hb] at hle
        omega
    have hrest : ∀ a ∈ l.filter (fun a => !decide (key a = k)), key a ∈ keys := by
      intro a ha
      obtain ⟨hal, hne⟩ := List.mem_filter.mp ha
      refine (List.mem_cons.mp (hmem a hal)).resolve_left ?_
      simpa using hne
    have hblocks := ih hkeys.2 hrest (hsorted.filter _)
    have hsame : (keys.flatMap fun j =>
        (l.filter fun a => !decide (key a = k)).filter fun a => key a = j) =
          keys.flatMap fun j => l.filter fun a => key a = j := by
      refine List.flatMap_congr ?_
      intro j hj
      rw [List.filter_filter]
      refine List.filter_congr ?_
      intro a _
      have hne : j ≠ k := by
        rintro rfl
        exact absurd (hkeys.1 j hj) (Int.lt_irrefl _)
      by_cases hkey : key a = j
      · simp [hkey, hne]
      · simp [hkey]
    rw [List.flatMap_cons, ← hsame, ← hblocks]
    exact eq_filter_append_filter hfirst

end Blocks

/-- In a list that goes up, the elements before the first failure are those with no failure at or
before them. -/
theorem mem_takeWhile_iff_of_pairwise {α : Type} {p : α → Bool} {rank : α → Nat} {l : List α}
    (hup : l.Pairwise fun a b => rank a < rank b) {a : α} :
    a ∈ l.takeWhile p ↔ a ∈ l ∧ ∀ b ∈ l, rank b ≤ rank a → p b = true := by
  induction l with
  | nil => simp
  | cons b l ih =>
    obtain ⟨hfirst, hrest⟩ := List.pairwise_cons.mp hup
    by_cases hb : p b = true
    · rw [List.takeWhile_cons_of_pos hb, List.mem_cons, List.mem_cons, ih hrest]
      constructor
      · rintro (rfl | ⟨ha, hall⟩)
        · refine ⟨Or.inl rfl, fun c hc hle => ?_⟩
          rcases List.mem_cons.mp hc with rfl | hc
          · exact hb
          · exact absurd (hfirst c hc) (Nat.not_lt.mpr hle)
        · refine ⟨Or.inr ha, fun c hc hle => ?_⟩
          rcases List.mem_cons.mp hc with rfl | hc
          · exact hb
          · exact hall c hc hle
      · rintro ⟨rfl | ha, hall⟩
        · exact Or.inl rfl
        · exact Or.inr ⟨ha, fun c hc => hall c (List.mem_cons_of_mem b hc)⟩
    · rw [List.takeWhile_cons_of_neg hb]
      constructor
      · intro ha
        exact absurd ha List.not_mem_nil
      · rintro ⟨ha, hall⟩
        refine absurd (hall b List.mem_cons_self ?_) hb
        rcases List.mem_cons.mp ha with rfl | ha
        · exact Nat.le_refl _
        · exact Nat.le_of_lt (hfirst a ha)
