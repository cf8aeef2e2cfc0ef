import FirewallManager.Manager.AssignmentEffect
import FirewallManager.Manager.BroadAllow
import FirewallManager.Lib.Lists

/-!
# Rule edits

The edit dialog sends every field of a rule, with null for an absent network, port range or
interface. `update_rule` merges the request with the old row column by column, and null keeps what
is there. `updatedRule_form` is the merged row, and `edit_stored_iff` says when it is the submitted
one.
-/

namespace FirewallManager

/-- The editable fields of a rule. The port ranges satisfy the constraints of the table. -/
structure RuleForm where
  name : String
  description : String
  action : FirewallAction
  direction : FirewallDirection
  protocol : FirewallProtocol
  srcCidr : Option String
  srcPorts : Option PortRange
  dstCidr : Option String
  dstPorts : Option PortRange
  interfaceIn : Option String
  interfaceOut : Option String
  comment : String
  log : Bool
  priority : Int
  deriving DecidableEq

/-- The request of the edit dialog. -/
def RuleForm.request (form : RuleForm) : Rules.UpdateRuleRequest where
  name := some form.name
  description := some form.description
  action := some form.action
  direction := some form.direction
  protocol := some form.protocol
  srcCidr := form.srcCidr
  srcPortStart := form.srcPorts.map PortRange.start
  srcPortEnd := form.srcPorts.map PortRange.stop
  dstCidr := form.dstCidr
  dstPortStart := form.dstPorts.map PortRange.start
  dstPortEnd := form.dstPorts.map PortRange.stop
  interfaceIn := form.interfaceIn
  interfaceOut := form.interfaceOut
  comment := some form.comment
  log := some form.log
  priority := some form.priority

/-- The editable fields of a stored rule. -/
def StoredRule.form (row : StoredRule) : RuleForm where
  name := row.name
  description := row.description
  action := row.action
  direction := row.direction
  protocol := row.protocol
  srcCidr := row.srcCidr
  srcPorts := row.srcPorts
  dstCidr := row.dstCidr
  dstPorts := row.dstPorts
  interfaceIn := row.interfaceIn
  interfaceOut := row.interfaceOut
  comment := row.comment
  log := row.log
  priority := row.priority

/-- The fields as the columns hold them: the networks are the texts of `inet` values. -/
def RuleForm.columns (inetText : String → Option String) (form : RuleForm) : Option RuleForm := do
  let srcCidr ← castInet inetText form.srcCidr
  let dstCidr ← castInet inetText form.dstCidr
  some { form with srcCidr := srcCidr, dstCidr := dstCidr }

/-- The fields of a form, with those of another one where a nullable field is absent. -/
def RuleForm.orElse (form old : RuleForm) : RuleForm :=
  { form with
    srcCidr := form.srcCidr <|> old.srcCidr
    srcPorts := form.srcPorts <|> old.srcPorts
    dstCidr := form.dstCidr <|> old.dstCidr
    dstPorts := form.dstPorts <|> old.dstPorts
    interfaceIn := form.interfaceIn <|> old.interfaceIn
    interfaceOut := form.interfaceOut <|> old.interfaceOut }

/-- No field that the rule has is absent in the form. -/
structure ClearsNothing (form : RuleForm) (old : StoredRule) : Prop where
  srcCidr : form.srcCidr = none → old.srcCidr = none
  srcPorts : form.srcPorts = none → old.srcPorts = none
  dstCidr : form.dstCidr = none → old.dstCidr = none
  dstPorts : form.dstPorts = none → old.dstPorts = none
  interfaceIn : form.interfaceIn = none → old.interfaceIn = none
  interfaceOut : form.interfaceOut = none → old.interfaceOut = none

theorem RuleForm.orElse_eq_self_iff (form : RuleForm) (old : StoredRule) :
    form.orElse old.form = form ↔ ClearsNothing form old := by
  have hfields : form.orElse old.form = form ↔
      ((form.srcCidr <|> old.srcCidr) = form.srcCidr ∧
        (form.srcPorts <|> old.srcPorts) = form.srcPorts ∧
        (form.dstCidr <|> old.dstCidr) = form.dstCidr ∧
        (form.dstPorts <|> old.dstPorts) = form.dstPorts ∧
        (form.interfaceIn <|> old.interfaceIn) = form.interfaceIn ∧
        (form.interfaceOut <|> old.interfaceOut) = form.interfaceOut) := by
    cases form
    simp [RuleForm.orElse, StoredRule.form]
  rw [hfields]
  simp only [Lists.orElse_eq_left_iff]
  constructor
  · rintro ⟨hsrc, hsrcPorts, hdst, hdstPorts, hin, hout⟩
    exact ⟨hsrc, hsrcPorts, hdst, hdstPorts, hin, hout⟩
  · intro h
    exact ⟨h.srcCidr, h.srcPorts, h.dstCidr, h.dstPorts, h.interfaceIn, h.interfaceOut⟩

variable {inetText : String → Option String}

/-- A network is absent in the columns exactly when it is absent in the form. -/
theorem castInet_eq_none_iff {given cast : Option String}
    (h : castInet inetText given = some cast) : cast = none ↔ given = none := by
  cases given with
  | none =>
    obtain rfl := Option.some.inj h
    exact iff_of_true rfl rfl
  | some cidr =>
    obtain ⟨text, -, rfl⟩ := Option.map_eq_some_iff.mp h
    simp

theorem RuleForm.columns_clearsNothing_iff {form cast : RuleForm}
    (h : form.columns inetText = some cast) (old : StoredRule) :
    ClearsNothing cast old ↔ ClearsNothing form old := by
  simp only [RuleForm.columns, Option.bind_eq_bind, Option.bind_eq_some_iff,
    Option.some.injEq] at h
  obtain ⟨src, hsrc, dst, hdst, rfl⟩ := h
  constructor
  · rintro ⟨hsrcKept, hsrcPorts, hdstKept, hdstPorts, hin, hout⟩
    exact ⟨fun hnone => hsrcKept ((castInet_eq_none_iff hsrc).mpr hnone), hsrcPorts,
      fun hnone => hdstKept ((castInet_eq_none_iff hdst).mpr hnone), hdstPorts, hin, hout⟩
  · rintro ⟨hsrcKept, hsrcPorts, hdstKept, hdstPorts, hin, hout⟩
    exact ⟨fun hnone => hsrcKept ((castInet_eq_none_iff hsrc).mp hnone), hsrcPorts,
      fun hnone => hdstKept ((castInet_eq_none_iff hdst).mp hnone), hdstPorts, hin, hout⟩

theorem portColumns_range (range : PortRange) :
    portColumns (some range.start) (some range.stop) = some (some range) :=
  dif_pos ⟨range.one_le_start, range.start_le_stop, range.stop_le⟩

theorem portColumns_orElse (given old : Option PortRange) :
    portColumns (given.map PortRange.start <|> old.map PortRange.start)
      (given.map PortRange.stop <|> old.map PortRange.stop) = some (given <|> old) := by
  cases given with
  | some range => exact portColumns_range range
  | none =>
    cases old with
    | some range => exact portColumns_range range
    | none => rfl

theorem updatedRule_form {form : RuleForm} {old rule : StoredRule} {db : Database}
    (h : Rules.updatedRule inetText form.request old db = some rule) :
    ∃ cast, form.columns inetText = some cast ∧ rule.form = cast.orElse old.form := by
  simp only [Rules.updatedRule, Option.bind_eq_bind, Option.bind_eq_some_iff] at h
  obtain ⟨src, hsrc, dst, hdst, srcPorts, hsrcPorts, dstPorts, hdstPorts, hrow⟩ := h
  obtain rfl : _ = srcPorts :=
    Option.some.inj ((portColumns_orElse form.srcPorts old.srcPorts).symm.trans hsrcPorts)
  obtain rfl : _ = dstPorts :=
    Option.some.inj ((portColumns_orElse form.dstPorts old.dstPorts).symm.trans hdstPorts)
  split at hrow
  next => cases hrow
  next =>
    obtain rfl := Option.some.inj hrow
    refine ⟨{ form with srcCidr := src, dstCidr := dst }, ?_, rfl⟩
    have hsrcForm : castInet inetText form.srcCidr = some src := hsrc
    have hdstForm : castInet inetText form.dstCidr = some dst := hdst
    rw [RuleForm.columns, hsrcForm, hdstForm]
    rfl

theorem updateRule_eq_ok {user : AuthUser} {id : Uuid} {req : Rules.UpdateRuleRequest}
    {db : Database} {answer : FirewallRule}
    (h : (Rules.updateRule inetText user id req db).1 = .ok answer) :
    ∃ old new, db.rules.find? id = some old ∧
      Rules.updatedRule inetText req old db = some new ∧ answer = new.toModel ∧
      (Rules.updateRule inetText user id req db).2.rules.find? id = some new := by
  have hrun := requireWrite_eq_ok (Prod.ext h rfl :
    Rules.updateRule inetText user id req db =
      (.ok answer, (Rules.updateRule inetText user id req db).2))
  rcases hfind : db.rules.find? id with _ | old
  · rw [hfind] at hrun
    cases (Prod.mk.inj hrun).1
  · rw [hfind] at hrun
    rcases hrule : Rules.updatedRule inetText req old db with _ | new
    · dsimp only at hrun
      rw [hrule] at hrun
      cases (Prod.mk.inj hrun).1
    · dsimp only at hrun
      rw [hrule] at hrun
      obtain ⟨hanswer, hafter⟩ := Prod.mk.inj hrun
      obtain ⟨-, hid⟩ := Table.mem_of_find? hfind
      have hsame : { new with id := old.id } = new := by
        rw [← (updatedRule_spec hrule).1]
      refine ⟨old, new, rfl, hrule, (Except.ok.inj hanswer).symm, ?_⟩
      rw [← hafter]
      dsimp only
      rw [Table.find?_update, hfind, Option.map_some, if_pos (decide_eq_true hid), hsame]

/-- **When an edit stores what was submitted.** After a successful edit with any form, the stored
rule, which is also the answer, has the submitted fields if and only if no network, port range or
interface of the old rule is absent in the form. -/
theorem edit_stored_iff (inetText : String → Option String) (user : AuthUser) (id : Uuid)
    (form : RuleForm) (db : Database) (answer : FirewallRule)
    (hok : (Rules.updateRule inetText user id form.request db).1 = .ok answer) :
    ∃ old new, db.rules.find? id = some old ∧
      (Rules.updateRule inetText user id form.request db).2.rules.find? id = some new ∧
      answer = new.toModel ∧
      (form.columns inetText = some new.form ↔ ClearsNothing form old) := by
  obtain ⟨old, new, hold, hrule, hanswer, hnew⟩ := updateRule_eq_ok hok
  refine ⟨old, new, hold, hnew, hanswer, ?_⟩
  obtain ⟨cast, hcast, hform⟩ := updatedRule_form hrule
  rw [hcast, hform, Option.some.injEq, eq_comm, RuleForm.orElse_eq_self_iff,
    RuleForm.columns_clearsNothing_iff hcast]

/-- A rule that opens the SSH port to one network. -/
def insideRule : StoredRule :=
  { sshStored with id := ⟨5⟩, srcCidr := some "10.0.0.0/8", priority := 1000 }

/-- The fleet with that rule. -/
def editedFleet : Database :=
  { smallFleet with rules := .singleton insideRule }

/-- Removing the network in the dialog succeeds and changes nothing. -/
theorem cleared_network_stays :
    (Rules.updateRule some someOperator ⟨5⟩ { insideRule.form with srcCidr := none }.request
        editedFleet).1 = .ok insideRule.toModel ∧
      (Rules.updateRule some someOperator ⟨5⟩ { insideRule.form with srcCidr := none }.request
        editedFleet).2.rules.find? ⟨5⟩ = some insideRule ∧
      { insideRule.form with srcCidr := none }.columns some ≠ some insideRule.form := by
  decide

/-- Another network is stored. -/
theorem changed_network_stored :
    ∃ new, (Rules.updateRule some someOperator ⟨5⟩
        { insideRule.form with srcCidr := some "10.1.0.0/16" }.request
        editedFleet).2.rules.find? ⟨5⟩ = some new ∧
      some { insideRule.form with srcCidr := some "10.1.0.0/16" } = some new.form := by
  have hok : (Rules.updateRule some someOperator ⟨5⟩
      { insideRule.form with srcCidr := some "10.1.0.0/16" }.request editedFleet).1 =
      .ok { insideRule.toModel with srcCidr := some "10.1.0.0/16" } := by
    decide
  obtain ⟨old, new, hold, hnew, -, hiff⟩ := edit_stored_iff some someOperator ⟨5⟩
    { insideRule.form with srcCidr := some "10.1.0.0/16" } editedFleet _ hok
  obtain rfl := Option.some.inj hold
  refine ⟨new, hnew, hiff.mpr ?_⟩
  constructor <;> decide

end FirewallManager
