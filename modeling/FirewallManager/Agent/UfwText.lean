import FirewallManager.Agent.Ufw

/-!
# The text of a compiled rule

A rule's command line is a fixed sequence of clauses, most of them optional
(`compileUfwRule_toList`). Every clause starts with a blank and its keyword, and no two clauses
that can follow each other start with the same letter, so a command line determines its clauses:
`clause_append_inj` and `logWord_append_inj` peel the optional ones off.
-/

namespace FirewallManager

open List

/-- The text has no blank in it. -/
def BlankFree (text : Option String) : Prop :=
  ∀ value ∈ text, ' ' ∉ value.toList

theorem portRange_blankFree (start stop : Option Int) : BlankFree (portRange start stop) := by
  intro value hvalue
  cases start with
  | none => simp [portRange] at hvalue
  | some s =>
    cases stop with
    | none =>
      obtain rfl : toString s = value := by simpa [portRange] using hvalue
      exact Text.blank_not_mem_toString s
    | some e =>
      by_cases heq : s = e
      · obtain rfl : toString s = value := by simpa [portRange, heq] using hvalue
        exact Text.blank_not_mem_toString s
      · obtain rfl : toString s ++ ":" ++ toString e = value := by
          simpa [portRange, heq] using hvalue
        rw [String.toList_append, String.toList_append, mem_append, mem_append,
          not_or, not_or]
        exact ⟨⟨Text.blank_not_mem_toString s, by decide⟩, Text.blank_not_mem_toString e⟩

/-- The second character of a list. A command's clauses are told apart by it, since every clause
starts with a blank and its keyword. -/
def second (chars : List Char) : Option Char :=
  chars.tail.head?

theorem clause_none_toList (keyword : String) : (clause keyword none).toList = [] :=
  rfl

theorem clause_some_toList (keyword value : String) :
    (clause keyword (some value)).toList =
      ' ' :: (keyword.toList ++ ' ' :: value.toList) := by
  simp [clause, String.toList_append]

theorem clause_append_inj {keyword : String} {value value' : Option String}
    {rest rest' : List Char} (hvalue : BlankFree value) (hvalue' : BlankFree value')
    (hrest : Text.Delimited ' ' rest) (hrest' : Text.Delimited ' ' rest')
    (hkeyword : keyword.toList ≠ [])
    (hstart : second rest ≠ keyword.toList.head?) (hstart' : second rest' ≠ keyword.toList.head?)
    (h : (clause keyword value).toList ++ rest = (clause keyword value').toList ++ rest') :
    value = value' ∧ rest = rest' := by
  obtain ⟨k, ks, hk⟩ := exists_cons_of_ne_nil hkeyword
  cases value with
  | none =>
    cases value' with
    | none => exact ⟨rfl, by simpa [clause_none_toList] using h⟩
    | some text' =>
      rw [clause_none_toList, clause_some_toList, nil_append] at h
      rw [h, hk] at hstart
      simp [second] at hstart
  | some text =>
    cases value' with
    | none =>
      rw [clause_none_toList, clause_some_toList, nil_append] at h
      rw [← h, hk] at hstart'
      simp [second] at hstart'
    | some text' =>
      rw [clause_some_toList, clause_some_toList] at h
      simp only [cons_append, append_assoc, List.cons.injEq, true_and,
        append_cancel_left_eq] at h
      obtain ⟨htext, htail⟩ := Text.cancel_field (hvalue text rfl) (hvalue' text' rfl)
        hrest hrest' h
      exact ⟨by rw [String.toList_inj.mp htext], htail⟩

/-- The log word of a command. -/
def logWord (log : Bool) : List Char :=
  if log then " log".toList else []

theorem logWord_append_inj {log log' : Bool} {rest rest' : List Char}
    (hstart : second rest ≠ some 'l') (hstart' : second rest' ≠ some 'l')
    (h : logWord log ++ rest = logWord log' ++ rest') : log = log' ∧ rest = rest' := by
  cases log with
  | false =>
    cases log' with
    | false => exact ⟨rfl, h⟩
    | true =>
      rw [logWord, logWord, if_neg (by decide), if_pos rfl, nil_append] at h
      rw [h] at hstart
      exact absurd rfl hstart
  | true =>
    cases log' with
    | false =>
      rw [logWord, logWord, if_pos rfl, if_neg (by decide), nil_append] at h
      rw [← h] at hstart'
      exact absurd rfl hstart'
    | true => exact ⟨rfl, append_cancel_left h⟩

/-- The end of a command: the destination ports and the comment. -/
def dstTail (rule : FirewallRule) : List Char :=
  (clause "port" (portRange rule.dstPortStart rule.dstPortEnd)).toList ++
    (commentClause rule.comment).toList

/-- The destination and everything after it. -/
def toTail (rule : FirewallRule) : List Char :=
  " to ".toList ++ (rule.dstCidr.getD "any").toList ++ dstTail rule

/-- The source ports and everything after them. -/
def srcTail (rule : FirewallRule) : List Char :=
  (clause "port" (portRange rule.srcPortStart rule.srcPortEnd)).toList ++ toTail rule

/-- The protocol and everything after it. -/
def protoTail (rule : FirewallRule) : List Char :=
  (clause "proto" rule.protoWord).toList ++
    (" from ".toList ++ (rule.srcCidr.getD "any").toList ++ srcTail rule)

/-- The words before the log word. They show hashed fields only. -/
def actionHead (rule : FirewallRule) : List Char :=
  "ufw".toList ++ (ufwActionWord rule.action).toList ++
    (if rule.direction = .out then " out" else "").toList

theorem compileUfwRule_toList (rule : FirewallRule) :
    (compileUfwRule rule).toList = actionHead rule ++ (logWord rule.log ++
      ((clause "on" rule.interface).toList ++ protoTail rule)) := by
  have hlog : (if rule.log then " log" else "").toList = logWord rule.log := by
    cases rule.log <;> rfl
  delta compileUfwRule actionHead protoTail srcTail toTail dstTail
  simp only [String.toList_append, hlog, append_assoc]

theorem commentClause_delimited (comment : String) :
    Text.Delimited ' ' (commentClause comment).toList ∧
      second (commentClause comment).toList ≠ some 'p' := by
  rw [commentClause]
  split
  · exact ⟨Or.inl rfl, by decide⟩
  · simp [Text.Delimited, second, String.toList_append]

/-- What follows the source ports starts with a `to` word. -/
theorem toTail_start (rule : FirewallRule) :
    Text.Delimited ' ' (toTail rule) ∧ second (toTail rule) = some 't' :=
  ⟨Or.inr rfl, rfl⟩

theorem protoTail_start (rule : FirewallRule) :
    Text.Delimited ' ' (protoTail rule) ∧
      (second (protoTail rule) = some 'p' ∨ second (protoTail rule) = some 'f') := by
  rw [protoTail]
  cases rule.protoWord with
  | none => simp [clause_none_toList, Text.Delimited, second]
  | some word => simp [clause_some_toList, Text.Delimited, second]

theorem second_on_ne (rule : FirewallRule) :
    second ((clause "on" rule.interface).toList ++ protoTail rule) ≠ some 'l' := by
  cases rule.interface with
  | none =>
    rw [clause_none_toList, nil_append]
    rcases (protoTail_start rule).2 with h | h <;> simp [h]
  | some name => simp [clause_some_toList, second]

theorem compileUfwRule_start (rule : FirewallRule) :
    ∃ rest, (compileUfwRule rule).toList =
      "ufw".toList ++ (ufwActionWord rule.action).toList ++ ' ' :: rest := by
  obtain ⟨rest, hproto⟩ : ∃ rest, protoTail rule = ' ' :: rest := by
    obtain ⟨hnil | hhead, hsecond⟩ := protoTail_start rule
    · simp [hnil, second] at hsecond
    · exact ⟨_, (cons_head?_tail hhead).symm⟩
  rw [compileUfwRule_toList, actionHead, append_assoc ("ufw".toList ++ _)]
  by_cases hout : rule.direction = .out
  · rw [if_pos hout]
    exact ⟨_, rfl⟩
  · rw [if_neg hout, String.toList_empty, nil_append]
    cases hlog : rule.log with
    | true => exact ⟨_, rfl⟩
    | false =>
      cases hon : rule.interface with
      | some name => exact ⟨_, by rw [logWord, if_neg (by decide), clause_some_toList]; rfl⟩
      | none =>
        exact ⟨rest, by rw [logWord, if_neg (by decide), clause_none_toList, hproto]; rfl⟩

end FirewallManager
