import FirewallManager.Lib.ShlexScan
import FirewallManager.Ufw.Grammar

/-!
# Interface texts

The interface of a rule is copied into its command line without quotes, and the line is split again
before it is run. `Inserted` says that an interface adds its two words to the argument vector and
leaves the other words alone.

`inserted_iff` reduces that to the rest of the line, and `interface_inserted_iff` says for which
texts it holds: those that are plain words.
-/

namespace FirewallManager

open List

/-- The rule with the interface of its direction set. -/
def FirewallRule.onInterface (rule : FirewallRule) (name : Option String) : FirewallRule :=
  if rule.direction = .out then { rule with interfaceOut := name }
  else { rule with interfaceIn := name }

/-- The words of a command before its interface. -/
def headWords (rule : FirewallRule) : List String :=
  "ufw" :: rule.action.asStr :: flagWords rule

/-- An argument vector with an interface after the direction and the log word. -/
def insertInterface (rule : FirewallRule) (name : String) (words : List String) : List String :=
  words.take (headWords rule).length ++ "on" :: name :: words.drop (headWords rule).length

/-- With the interface, a command is split into the words it has without one and the two words of
the interface. If it cannot be split without the interface, it cannot be split with it. -/
def Inserted (rule : FirewallRule) (name : String) : Prop :=
  Shlex.split (compileUfwRule (rule.onInterface (some name))) =
    (Shlex.split (compileUfwRule (rule.onInterface none))).map (insertInterface rule name)

/-- The command line after the interface. -/
def commandTail (rule : FirewallRule) : List Char :=
  Shlex.spaced (clauseTail rule) ++ (commentClause rule.comment).toList

/-- The networks are plain words, as those of stored rules are. -/
structure PlainNetworks (rule : FirewallRule) : Prop where
  srcCidr : ∀ cidr ∈ rule.srcCidr, Shlex.PlainWord cidr.toList
  dstCidr : ∀ cidr ∈ rule.dstCidr, Shlex.PlainWord cidr.toList

/-! ## The command line around the interface -/

theorem ruleWords_onInterface (rule : FirewallRule) (name : Option String) :
    ruleWords (rule.onInterface name) =
      flagWords rule ++ (clauseWords "on" name ++ clauseTail rule) := by
  rw [ruleWords_interface]
  by_cases hout : rule.direction = .out
  · rw [FirewallRule.onInterface, if_pos hout]
    simp only [FirewallRule.interface, if_pos hout]
    rfl
  · rw [FirewallRule.onInterface, if_neg hout]
    simp only [FirewallRule.interface, if_neg hout]
    rfl

theorem onInterface_frame (rule : FirewallRule) (name : Option String) :
    (rule.onInterface name).action = rule.action ∧
      (rule.onInterface name).comment = rule.comment ∧
      (rule.onInterface name).srcCidr = rule.srcCidr ∧
      (rule.onInterface name).dstCidr = rule.dstCidr := by
  rw [FirewallRule.onInterface]
  split
  next => exact ⟨rfl, rfl, rfl, rfl⟩
  next => exact ⟨rfl, rfl, rfl, rfl⟩

theorem compileUfwRule_onInterface (rule : FirewallRule) (name : Option String) :
    (compileUfwRule (rule.onInterface name)).toList =
      "ufw".toList ++ (Shlex.spaced (rule.action.asStr :: flagWords rule) ++
        (Shlex.spaced (clauseWords "on" name) ++ commandTail rule)) := by
  obtain ⟨haction, hcomment, -⟩ := onInterface_frame rule name
  rw [compileUfwRule_words, haction, hcomment, ruleWords_onInterface, commandTail]
  simp only [Shlex.spaced_cons, Shlex.spaced_append, append_assoc, cons_append]

theorem commandTail_start (rule : FirewallRule) :
    ∃ c rest, commandTail rule = ' ' :: c :: rest ∧ Shlex.isPlain c = true := by
  rw [commandTail, clauseTail]
  cases rule.protoWord with
  | none => exact ⟨'f', _, rfl, rfl⟩
  | some word => exact ⟨'p', _, rfl, rfl⟩

theorem commandTail_head (rule : FirewallRule) : (commandTail rule).head? = some ' ' := by
  obtain ⟨c, rest, htail, -⟩ := commandTail_start rule
  rw [htail]
  rfl

/-- A command starts with its first words, whatever follows them. -/
theorem lex_headWords (rule : FirewallRule) {tail : List Char} (htail : tail.head? = some ' ') :
    Shlex.lex .gap [] ("ufw".toList ++
        (Shlex.spaced (rule.action.asStr :: flagWords rule) ++ tail)) =
      (Shlex.lex .gap [] tail).map ((headWords rule).map String.toList ++ ·) := by
  have hufw : Shlex.PlainWord "ufw".toList := by decide
  have hwords : ∀ word ∈ rule.action.asStr :: flagWords rule,
      word = "" ∨ Shlex.PlainWord word.toList := by
    rw [flagWords]
    cases rule.action <;> cases rule.log <;> split <;> decide
  have hkept : (rule.action.asStr :: flagWords rule).filter (· ≠ "") =
      rule.action.asStr :: flagWords rule := by
    rw [flagWords]
    cases rule.action <;> cases rule.log <;> split <;> decide
  rw [Shlex.lex_line hufw hwords (Or.inr htail), hkept, headWords]

theorem lex_onInterface_some (rule : FirewallRule) (name : String) :
    Shlex.lex .gap [] (compileUfwRule (rule.onInterface (some name))).toList =
      (Shlex.lex .gap [] (name.toList ++ commandTail rule)).map
        ((headWords rule ++ ["on"]).map String.toList ++ ·) := by
  have hon : ∀ word ∈ ["on"], word = "" ∨ Shlex.PlainWord word.toList := by decide
  have hline : Shlex.spaced (clauseWords "on" (some name)) ++ commandTail rule =
      Shlex.spaced ["on"] ++ ' ' :: (name.toList ++ commandTail rule) := by
    simp [clauseWords]
  have hskip : Shlex.lex .gap [] (' ' :: (name.toList ++ commandTail rule)) =
      Shlex.lex .gap [] (name.toList ++ commandTail rule) := rfl
  rw [compileUfwRule_onInterface, hline, lex_headWords rule rfl, Shlex.lex_spaced hon (Or.inr rfl),
    hskip, Option.map_map]
  simp [Function.comp_def]

theorem lex_onInterface_none (rule : FirewallRule) :
    Shlex.lex .gap [] (compileUfwRule (rule.onInterface none)).toList =
      (Shlex.lex .gap [] (commandTail rule)).map ((headWords rule).map String.toList ++ ·) := by
  rw [compileUfwRule_onInterface]
  exact lex_headWords rule (commandTail_head rule)

theorem insertInterface_append (rule : FirewallRule) (name : String) (words : List String) :
    insertInterface rule name (headWords rule ++ words) =
      headWords rule ++ "on" :: name :: words := by
  rw [insertInterface, take_left, drop_left]

/-- An interface is inserted exactly when the scanner reads it, at its place in the line, as a word
of its own and the rest as before. -/
theorem inserted_iff (rule : FirewallRule) (name : String) :
    Inserted rule name ↔ Shlex.lex .gap [] (name.toList ++ commandTail rule) =
      (Shlex.lex .gap [] (commandTail rule)).map (name.toList :: ·) := by
  have hinjective : Function.Injective fun words : List (List Char) =>
      headWords rule ++ "on" :: words.map String.ofList := by
    intro words words' h
    have hmaps := (List.cons.inj (append_cancel_left h)).2
    exact map_injective_iff.mpr (fun _ _ h => String.ofList_injective h) hmaps
  have hwith : Shlex.split (compileUfwRule (rule.onInterface (some name))) =
      (Shlex.lex .gap [] (name.toList ++ commandTail rule)).map
        fun words => headWords rule ++ "on" :: words.map String.ofList := by
    rw [Shlex.split, lex_onInterface_some, Option.map_map]
    simp [Function.comp_def]
  have hwithout : (Shlex.split (compileUfwRule (rule.onInterface none))).map
      (insertInterface rule name) =
        ((Shlex.lex .gap [] (commandTail rule)).map (name.toList :: ·)).map
          fun words => headWords rule ++ "on" :: words.map String.ofList := by
    rw [Shlex.split, lex_onInterface_none, Option.map_map, Option.map_map, Option.map_map]
    simp [Function.comp_def, insertInterface_append]
  rw [Inserted, hwith, hwithout, (Option.map_injective hinjective).eq_iff]

/-! ## Plain words -/

theorem inserted_of_plainWord (rule : FirewallRule) {name : String}
    (h : Shlex.PlainWord name.toList) : Inserted rule name :=
  (inserted_iff rule name).mpr (Shlex.lex_pasted h (commandTail_head rule))

theorem lex_commandTail {rule : FirewallRule} (h : PlainNetworks rule) :
    Shlex.lex .gap [] (commandTail rule) =
      some ((clauseTail rule ++ commentWords rule.comment).map String.toList) := by
  obtain ⟨-, -, hsrc, hdst⟩ := onInterface_frame rule none
  have hnone : (rule.onInterface none).interface = none := by
    rw [FirewallRule.onInterface, FirewallRule.interface]
    split <;> simp_all
  have hall : ∀ word ∈ ruleWords (rule.onInterface none), Shlex.PlainWord word.toList :=
    forall_mem_ruleWords (fun _ hword => hword) (by simp [hnone]) (hsrc ▸ h.srcCidr)
      (hdst ▸ h.dstCidr)
  rw [ruleWords_onInterface] at hall
  have hplain : ∀ word ∈ clauseTail rule, Shlex.PlainWord word.toList := fun word hword =>
    hall word (by simp [clauseWords, hword])
  have hkept : (clauseTail rule).filter (· ≠ "") = clauseTail rule := by
    refine filter_eq_self.mpr fun word hword => decide_eq_true ?_
    rintro rfl
    exact (hplain "" hword).1 rfl
  rw [commandTail, Shlex.lex_spaced (fun word hword => Or.inr (hplain word hword))
    (commentClause_start _), lex_commentClause, hkept, map_append]
  rfl

theorem plainTotal_commentWords (comment : String) :
    Shlex.plainTotal ((commentWords comment).map String.toList) =
      Shlex.plainCount (commentClause comment).toList := by
  by_cases hcomment : comment = ""
  · rw [commentWords, if_pos hcomment, commentClause, if_pos hcomment]
    rfl
  · have hquote : ¬ Shlex.isPlain '\'' = true := by decide
    rw [commentClause_toList hcomment, commentWords, if_neg hcomment, Shlex.plainCount,
      countP_append, ← Shlex.plainCount, ← Shlex.plainCount, Shlex.plainCount_spaced,
      Shlex.plainCount_blank_cons]
    simp [Shlex.plainTotal, Shlex.plainCount, hquote]

theorem plainTotal_commandTail (rule : FirewallRule) :
    Shlex.plainTotal ((clauseTail rule ++ commentWords rule.comment).map String.toList) =
      Shlex.plainCount (commandTail rule) := by
  rw [commandTail, Shlex.plainCount, countP_append, ← Shlex.plainCount, ← Shlex.plainCount,
    Shlex.plainCount_spaced, ← plainTotal_commentWords]
  simp [Shlex.plainTotal]

/-- **Interface texts.** A text is inserted as it is into the command of every rule exactly when it
is a plain word. For a rule whose networks are plain words, it also has to be one in order to be
inserted into that command. -/
theorem interface_inserted_iff (name : String) :
    ((∀ rule, Inserted rule name) ↔ Shlex.PlainWord name.toList) ∧
      ∀ rule, PlainNetworks rule → (Inserted rule name ↔ Shlex.PlainWord name.toList) := by
  have hplain (rule : FirewallRule) (hnetworks : PlainNetworks rule)
      (hinserted : Inserted rule name) : Shlex.PlainWord name.toList := by
    obtain ⟨c, rest, htail, hc⟩ := commandTail_start rule
    have hwords := lex_commandTail hnetworks
    have hkept := plainTotal_commandTail rule
    have hpasted := (inserted_iff rule name).mp hinserted
    rw [hwords, Option.map_some] at hpasted
    rw [htail] at hwords hkept hpasted
    exact Shlex.plainWord_of_pasted hc hwords hkept hpasted
  refine ⟨⟨fun hall => ?_, fun h rule => inserted_of_plainWord rule h⟩, fun rule hnetworks =>
    ⟨hplain rule hnetworks, inserted_of_plainWord rule⟩⟩
  exact hplain formRule ⟨by decide, by decide⟩ (hall formRule)

/-- SSH from the inside network. -/
def insideSsh : FirewallRule :=
  ⟨⟨1⟩, "ssh", "", .allow, .in, .tcp, some "10.0.0.0/8", none, none, none, some 22, some 22, none,
    none, "", false, 0⟩

/-- An interface text with a number sign comments out the protocol, the network and the port. The
command allows everything that comes in through the interface. -/
theorem number_sign_drops_restrictions :
    Shlex.split (compileUfwRule (insideSsh.onInterface none)) =
        some ["ufw", "allow", "proto", "tcp", "from", "10.0.0.0/8", "to", "any", "port", "22"] ∧
      Shlex.split (compileUfwRule (insideSsh.onInterface (some "eth0 #"))) =
        some ["ufw", "allow", "on", "eth0"] ∧
      ¬ Inserted insideSsh "eth0 #" := by
  have hnone : Shlex.split (compileUfwRule (insideSsh.onInterface none)) =
      some ["ufw", "allow", "proto", "tcp", "from", "10.0.0.0/8", "to", "any", "port", "22"] := by
    decide +kernel
  have hsome : Shlex.split (compileUfwRule (insideSsh.onInterface (some "eth0 #"))) =
      some ["ufw", "allow", "on", "eth0"] := by
    decide +kernel
  refine ⟨hnone, hsome, ?_⟩
  rw [Inserted, hnone, hsome]
  decide +kernel

/-- The name of an interface is inserted. -/
theorem interface_name_inserted : Inserted insideSsh "eth0" :=
  ((interface_inserted_iff "eth0").2 insideSsh ⟨by decide, by decide⟩).mpr (by decide)

end FirewallManager
