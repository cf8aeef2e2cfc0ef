import FirewallManager.Agent.PullLoop
import Mathlib.Data.List.Sort

/-!
# What the status snapshot can tell apart

The snapshot of the UFW backend hashes the rule lines of `ufw status numbered` after it has
sorted them, while UFW itself decides by the first rule that matches. With an injective SHA-256
the hash therefore determines the rule lines up to their order and nothing more
(`snapshotHash_ufwStatusLines_inj`). `drift_seen_iff` says what this means for the next cycle of
an agent: an inserted, deleted or edited line is local drift, and a reordering is not.
-/

namespace FirewallManager

open List

/-- The rule lines of `ufw status numbered` in their order, numbers stripped and blanks dropped. -/
def ruleLines (stdout : String) : List String :=
  (((Text.lines stdout).drop 2).map stripRuleNumber).filter (· ≠ "")

theorem ufwStatusLines_eq (stdout : String) :
    ufwStatusLines stdout = (ruleLines stdout).mergeSort (· ≤ ·) :=
  rfl

theorem ufwStatusLines_eq_iff (stdout stdout' : String) :
    ufwStatusLines stdout = ufwStatusLines stdout' ↔
      (ruleLines stdout).Perm (ruleLines stdout') := by
  rw [ufwStatusLines_eq, ufwStatusLines_eq]
  constructor
  · intro h
    have hsorted := mergeSort_perm (ruleLines stdout) (· ≤ ·)
    have hsorted' := mergeSort_perm (ruleLines stdout') (· ≤ ·)
    rw [h] at hsorted
    exact hsorted.symm.trans hsorted'
  · intro h
    have hperm := ((mergeSort_perm (ruleLines stdout) (· ≤ ·)).trans h).trans
      (mergeSort_perm (ruleLines stdout') (· ≤ ·)).symm
    exact hperm.eq_of_pairwise' (pairwise_mergeSort' (· ≤ ·) _)
      (pairwise_mergeSort' (· ≤ ·) _)

theorem mem_of_mem_stripRuleNumber {line : String} {c : Char}
    (h : c ∈ (stripRuleNumber line).toList) : c ∈ line.toList := by
  dsimp only [stripRuleNumber] at h
  split at h
  next => exact Text.mem_of_mem_trim h
  next rest hrest =>
    have htail := Text.mem_of_mem_trim h
    rw [String.toList_ofList] at htail
    have hdropped := (dropWhile_sublist (· != ']')).subset
      (hrest ▸ mem_cons_of_mem _ htail)
    exact Text.mem_of_mem_trim hdropped

theorem newline_not_mem_of_mem_ufwStatusLines {stdout line : String}
    (h : line ∈ ufwStatusLines stdout) : '\n' ∉ line.toList := by
  rw [ufwStatusLines_eq, mem_mergeSort, ruleLines, mem_filter, mem_map] at h
  obtain ⟨⟨raw, hraw, rfl⟩, -⟩ := h
  intro hmem
  exact Text.newline_not_mem_of_mem_lines (mem_of_mem_drop hraw)
    (mem_of_mem_stripRuleNumber hmem)

theorem snapshot_bytes_eq (lines : List String) :
    lines.flatMap (fun line => Text.utf8 line ++ [10]) =
      Text.utf8 (String.ofList ((lines.map String.toList).flatMap (· ++ ['\n']))) := by
  induction lines with
  | nil => rfl
  | cons line lines ih =>
    have hfeed : Text.utf8 "\n" = [10] := rfl
    rw [flatMap_cons, ih, ← hfeed, ← Text.utf8_append, ← Text.utf8_append]
    congr 1
    rw [← String.toList_inj]
    simp

theorem snapshotHash_ufwStatusLines_inj {sha256 : List UInt8 → List UInt8}
    (hsha : Function.Injective sha256) (stdout stdout' : String) :
    snapshotHash sha256 (ufwStatusLines stdout) = snapshotHash sha256 (ufwStatusLines stdout') ↔
      (ruleLines stdout).Perm (ruleLines stdout') := by
  rw [snapshotHash, snapshotHash, Text.hexEncode_injective.eq_iff, hsha.eq_iff,
    snapshot_bytes_eq, snapshot_bytes_eq, Text.utf8_injective.eq_iff, String.ofList_inj,
    ← ufwStatusLines_eq_iff]
  constructor
  · intro h
    have hfree (output : String) :
        ∀ field ∈ (ufwStatusLines output).map String.toList, '\n' ∉ field := by
      intro field hfield
      obtain ⟨line, hline, rfl⟩ := mem_map.mp hfield
      exact newline_not_mem_of_mem_ufwStatusLines hline
    have hlines := Text.terminated_injective (hfree stdout) (hfree stdout') h
    exact map_injective_iff.mpr (fun _ _ => String.toList_inj.mp) hlines
  · intro h
    rw [h]

section Drift

variable {σ : Type} (sha256 : List UInt8 → List UInt8) (machine : Machine σ)

/-- What `ufw status numbered` answers. -/
def ufwStatusOutput (world : World σ) : CmdOutput :=
  (runCmd machine "ufw" ["status", "numbered"] world).1

theorem ufwSnapshot_of_success {world : World σ}
    (h : (ufwStatusOutput machine world).success = true) :
    (ufwSnapshot sha256 machine world).1 =
      .ok ⟨ufwStatusLines (ufwStatusOutput machine world).stdout,
        snapshotHash sha256 (ufwStatusLines (ufwStatusOutput machine world).stdout)⟩ := by
  rw [ufwStatusOutput] at h
  simp only [ufwSnapshot, h, if_true, ufwStatusOutput]

theorem localDrift_of_recorded (files : AgentFiles) {bytes : List UInt8} (liveHash : String)
    (hbytes : bytes ≠ []) (h : files.expectedHash = some (Text.hexEncode bytes)) :
    localDrift files liveHash = true ↔ Text.hexEncode bytes ≠ liveHash := by
  have hne : Text.hexEncode bytes ≠ "" := fun heq =>
    hbytes (Text.hexEncode_injective (heq.trans (by rfl : "" = Text.hexEncode [])))
  have hload : loadExpectedHash files = some (Text.hexEncode bytes) := by
    simp [loadExpectedHash, h, Text.trim_hexEncode, hne]
  simp [localDrift, hload]

/-- The snapshots before and after a change of the live firewall have different hashes, and the
agent that recorded the first one sees drift, exactly when the rule lines are not the same lines
in another order. -/
theorem drift_seen_iff {sha256 : List UInt8 → List UInt8} (hsha : Function.Injective sha256)
    (hdigest : ∀ bytes, sha256 bytes ≠ []) (machine : Machine σ) (before after : World σ)
    (hbefore : (ufwStatusOutput machine before).success = true)
    (hafter : (ufwStatusOutput machine after).success = true) :
    ∃ applied live, (ufwSnapshot sha256 machine before).1 = .ok applied ∧
      (ufwSnapshot sha256 machine after).1 = .ok live ∧
      (applied.hash ≠ live.hash ↔
        ¬ (ruleLines (ufwStatusOutput machine before).stdout).Perm
          (ruleLines (ufwStatusOutput machine after).stdout)) ∧
      ∀ files : AgentFiles, files.expectedHash = some applied.hash →
        (localDrift files live.hash = true ↔
          ¬ (ruleLines (ufwStatusOutput machine before).stdout).Perm
            (ruleLines (ufwStatusOutput machine after).stdout)) := by
  have hdiffers := not_congr (snapshotHash_ufwStatusLines_inj hsha
    (ufwStatusOutput machine before).stdout (ufwStatusOutput machine after).stdout)
  refine ⟨_, _, ufwSnapshot_of_success sha256 machine hbefore,
    ufwSnapshot_of_success sha256 machine hafter, hdiffers, ?_⟩
  intro files hfiles
  exact (localDrift_of_recorded files _ (hdigest _) hfiles).trans hdiffers

end Drift

/-- A host whose state is the text that `ufw status numbered` prints. -/
def printingMachine : Machine String where
  exec := fun _ _ os => (⟨true, os, ""⟩, os)
  removeFile := fun _ os => (true, os)
  applyLock := fun os => (.ok (), os)

/-- A firewall that refuses one network the SSH port and opens it to everyone else. -/
def denyFirst : String :=
  "Status: active\n\n[ 1] 22/tcp DENY IN 10.0.0.0/8\n[ 2] 22/tcp ALLOW IN Anywhere\n"

/-- The same rules in the other order, which lets that network in. -/
def allowFirst : String :=
  "Status: active\n\n[ 1] 22/tcp ALLOW IN Anywhere\n[ 2] 22/tcp DENY IN 10.0.0.0/8\n"

theorem ruleLines_denyFirst :
    ruleLines denyFirst = ["22/tcp DENY IN 10.0.0.0/8", "22/tcp ALLOW IN Anywhere"] := by
  decide +kernel

theorem ruleLines_allowFirst :
    ruleLines allowFirst = ["22/tcp ALLOW IN Anywhere", "22/tcp DENY IN 10.0.0.0/8"] := by
  decide +kernel

/-- The two firewalls have one snapshot, and an agent that applied the first one sees no drift in
the second one. -/
theorem swapped_rules_unnoticed :
    ruleLines denyFirst ≠ ruleLines allowFirst ∧
      ∃ snapshot, (ufwSnapshot (List.cons 1) printingMachine ⟨denyFirst, []⟩).1 = .ok snapshot ∧
        (ufwSnapshot (List.cons 1) printingMachine ⟨allowFirst, []⟩).1 = .ok snapshot ∧
        localDrift ⟨none, none, some snapshot.hash, []⟩ snapshot.hash = false := by
  have hsame : ufwStatusLines denyFirst = ufwStatusLines allowFirst := by
    rw [ufwStatusLines_eq_iff, ruleLines_denyFirst, ruleLines_allowFirst]
    exact List.Perm.swap _ _ _
  have hsnapshot (text : String) : (ufwSnapshot (List.cons 1) printingMachine ⟨text, []⟩).1 =
      .ok ⟨ufwStatusLines text, snapshotHash (List.cons 1) (ufwStatusLines text)⟩ :=
    ufwSnapshot_of_success (List.cons 1) printingMachine rfl
  refine ⟨?_, _, hsnapshot denyFirst, ?_, ?_⟩
  · rw [ruleLines_denyFirst, ruleLines_allowFirst]
    decide
  · rw [hsnapshot, ← hsame]
  · exact eq_false_of_ne_true fun hdrift =>
      (localDrift_of_recorded _ _ (cons_ne_nil 1 _) rfl).mp hdrift rfl

/-- The characterisation at a rule that is gone from the second firewall. -/
theorem drift_seen_at_removed :
    ∃ applied live, (ufwSnapshot (List.cons 1) printingMachine ⟨denyFirst, []⟩).1 = .ok applied ∧
      (ufwSnapshot (List.cons 1) printingMachine ⟨"Status: active\n\n", []⟩).1 = .ok live ∧
      applied.hash ≠ live.hash := by
  obtain ⟨applied, live, happlied, hlive, hdiffers, -⟩ :=
    drift_seen_iff cons_injective (fun _ => cons_ne_nil 1 _) printingMachine
      ⟨denyFirst, []⟩ ⟨"Status: active\n\n", []⟩ rfl rfl
  refine ⟨applied, live, happlied, hlive, hdiffers.mpr fun hperm => ?_⟩
  have hnone : ruleLines "Status: active\n\n" = [] := by decide +kernel
  have hlines : (ruleLines denyFirst).Perm (ruleLines "Status: active\n\n") := hperm
  rw [ruleLines_denyFirst, hnone] at hlines
  exact cons_ne_nil _ _ hlines.eq_nil

end FirewallManager
