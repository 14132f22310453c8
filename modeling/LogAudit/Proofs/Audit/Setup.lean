import LogAudit.Audit.Analyzer
import LogAudit.Proofs.Access.FirstMatch
import LogAudit.Proofs.Line.Slots
import Mathlib.Tactic.MkIffOfInductiveProp

/-!
# Setting analyzers up

A command can be at fault with the template, the settings or an earlier command (`Faulty`). The
analyzers of commands are set up in order, and the first command that is at fault decides why they
are not (`Analyzer.ofSettings_eq_error_iff`); if none is, there is one analyzer for each command.
-/

namespace LogAudit

open LogAudit.Line LogAudit.Access

/-- No token of the template is for a slot. -/
def Line.Template.Lacks (t : Template) (slot : Slot) : Prop := ∀ token ∈ t.tokens, token.slot ≠ slot

/-- A template does not have a field exactly if it lacks it. -/
theorem Line.Template.has_eq_false_iff {t : Template} {slot : Slot} :
    t.has slot = false ↔ t.Lacks slot := by
  rw [has, group?, Option.isSome_map, Option.isSome_eq_false_iff, Option.isNone_iff_eq_none,
    lastIndex?_eq_none_iff, Lacks]

/-- The first rule with an address but without clients. -/
def Access.FirstBad (rules : List Rule) (cause : RuleError) : Prop :=
  ∃ before rule after, rules = before ++ rule :: after ∧ rule.address ≠ "" ∧
    Clients.ofRule rule = .error cause ∧
    ∀ earlier ∈ before, earlier.address ≠ "" → ∃ clients, Clients.ofRule earlier = .ok clients

/-- The first bad rule is the first one of the list or, if that is good, one behind it. -/
theorem Access.firstBad_cons {rule : Rule} {rules : List Rule} {cause : RuleError} :
    FirstBad (rule :: rules) cause ↔
      (rule.address ≠ "" ∧ Clients.ofRule rule = .error cause) ∨
      (rule.address ≠ "" → ∃ clients, Clients.ofRule rule = .ok clients) ∧
        FirstBad rules cause := by
  constructor
  · rintro ⟨_ | ⟨first, before⟩, bad, after, hrules, haddress, hcause, hbefore⟩
    · obtain ⟨rfl, rfl⟩ := List.cons.inj hrules
      exact Or.inl ⟨haddress, hcause⟩
    · obtain ⟨rfl, rfl⟩ := List.cons.inj hrules
      obtain ⟨hfirst, hbefore⟩ := List.forall_mem_cons.1 hbefore
      exact Or.inr ⟨hfirst, before, bad, after, rfl, haddress, hcause, hbefore⟩
  · rintro (⟨haddress, hcause⟩ | ⟨hfirst, before, bad, after, rfl, haddress, hcause, hbefore⟩)
    · exact ⟨[], rule, rules, rfl, haddress, hcause, nofun⟩
    · exact ⟨rule :: before, bad, after, rfl, haddress, hcause,
        List.forall_mem_cons.2 ⟨hfirst, hbefore⟩⟩

/-- Rules are refused for the first of them that has no clients. -/
theorem Access.AddressRule.compile_eq_error_iff {rules : List Rule} {cause : RuleError} :
    compile rules = .error cause ↔ FirstBad rules cause := by
  induction rules with
  | nil =>
    constructor
    · exact fun h => absurd h nofun
    · rintro ⟨before, rule, after, hrules, -⟩
      exact absurd hrules (by simp)
  | cons rule rules ih =>
    rw [firstBad_cons, ← ih]
    by_cases haddress : rule.address = ""
    · simp [compile, haddress]
    · simp only [compile, haddress, if_false, ne_eq, not_false_eq_true, true_and, forall_const]
      cases hclients : Clients.ofRule rule with
      | error other => simp [bind, Except.bind]
      | ok clients =>
        cases hothers : compile rules with
        | error other => simp [bind, Except.bind]
        | ok others => simp [bind, Except.bind, pure, Except.pure]

namespace Audit

/-- A command cannot be set up after those before it, for this cause. -/
@[mk_iff]
inductive Faulty (t : Template) (settings : Settings) (before : List String) :
    String → SetupError → Prop where
  /-- Neither the prefix nor messages about connections tell hosts. -/
  | ipsWithoutHost (hhost : t.Lacks .host) (hlogged : settings.logConnections = false) :
    Faulty t settings before "unique_ips" .hostMissing
  /-- Neither the prefix nor messages about connections tell users. -/
  | usersWithoutUser (huser : t.Lacks .user) (hlogged : settings.logConnections = false) :
    Faulty t settings before "inactive_users" .userMissing
  /-- The prefix does not tell the host. -/
  | rulesWithoutHost (hhost : t.Lacks .host) :
    Faulty t settings before "hba_unused_lines" .hostMissing
  /-- The prefix tells the host, but not both the user and the database. -/
  | rulesWithoutAccount (hhost : ¬ t.Lacks .host) (haccount : t.Lacks .user ∨ t.Lacks .database) :
    Faulty t settings before "hba_unused_lines" .accountMissing
  /-- The prefix tells all that is needed, but a rule cannot be read. -/
  | badRule {cause : RuleError} (hhost : ¬ t.Lacks .host) (huser : ¬ t.Lacks .user)
    (hdatabase : ¬ t.Lacks .database) (hrules : FirstBad settings.hbaRules cause) :
    Faulty t settings before "hba_unused_lines" (.rule cause)
  /-- Personal data is searched for already. -/
  | personalTwice (hbefore : "pii" ∈ before) :
    Faulty t settings before "pii" .repeatedPersonalData

/-- After some commands, the first of others that is at fault is so for this cause. -/
def FirstFault (t : Template) (settings : Settings) (before commands : List String)
    (cause : SetupError) : Prop :=
  ∃ front command back, commands = front ++ command :: back ∧
    Faulty t settings (before ++ front) command cause ∧
    ∀ first earlier rest, front = first ++ earlier :: rest →
      ∀ cause, ¬ Faulty t settings (before ++ first) earlier cause

theorem firstFault_nil {t : Template} {settings : Settings} {before : List String}
    {cause : SetupError} : ¬ FirstFault t settings before [] cause := by
  rintro ⟨front, command, back, hcommands, -⟩
  exact absurd hcommands (by simp)

/-- The first fault is that of the first command or, if it has none, one behind it. -/
theorem firstFault_cons {t : Template} {settings : Settings} {before commands : List String}
    {command : String} {cause : SetupError} :
    FirstFault t settings before (command :: commands) cause ↔
      Faulty t settings before command cause ∨
      (∀ cause, ¬ Faulty t settings before command cause) ∧
        FirstFault t settings (before ++ [command]) commands cause := by
  constructor
  · rintro ⟨_ | ⟨first, front⟩, found, back, hcommands, hfound, hnone⟩
    · obtain ⟨rfl, rfl⟩ := List.cons.inj hcommands
      rw [List.append_nil] at hfound
      exact Or.inl hfound
    · obtain ⟨rfl, rfl⟩ := List.cons.inj hcommands
      have hcommand := hnone [] command front rfl
      rw [List.append_nil] at hcommand
      refine Or.inr ⟨hcommand, front, found, back, rfl, by simpa using hfound, ?_⟩
      rintro first earlier rest rfl other
      simpa using hnone (command :: first) earlier rest rfl other
  · rintro (hcommand | ⟨hcommand, front, found, back, rfl, hfound, hnone⟩)
    · exact ⟨[], command, commands, rfl, by rwa [List.append_nil],
        fun first earlier rest h => absurd h (by simp)⟩
    · refine ⟨command :: front, found, back, rfl, by simpa using hfound, ?_⟩
      rintro (_ | ⟨second, first⟩) earlier rest hfront other
      · obtain ⟨rfl, -⟩ := List.cons.inj hfront
        rw [List.append_nil]
        exact hcommand other
      · obtain ⟨rfl, rfl⟩ := List.cons.inj hfront
        simpa using hnone first earlier rest rfl other

namespace Analyzer

variable {t : Template} {settings : Settings} {detector : Detector} {before : List String}
  {command : String}

/-- Set one command up after those before it. -/
def ofCommandAfter (t : Template) (settings : Settings) (detector : Detector) (personal : Bool)
    (command : String) : Except SetupError Analyzer :=
  if personal && command == "pii" then .error .repeatedPersonalData
  else ofCommand t settings detector command

/-- The analyzers of commands are that of the first one and those of the others. -/
theorem ofCommands_cons (personal : Bool) (command : String) (commands : List String) :
    ofCommands t settings detector personal (command :: commands) = (do
      let analyzer ← ofCommandAfter t settings detector personal command
      let others ← ofCommands t settings detector (personal || command == "pii") commands
      return analyzer :: others) := by
  rw [ofCommands, ofCommandAfter]
  split <;> rfl

/-- Earlier commands only matter to the analyzer of personal data. -/
theorem ofCommandAfter_of_ne {personal : Bool} (h : command ≠ "pii") :
    ofCommandAfter t settings detector personal command = ofCommand t settings detector command := by
  simp [ofCommandAfter, h]

/-- The analyzer of unused rules is set up unless its command is at fault. -/
theorem unusedRules?_cases :
    (∃ analyzer, unusedRules? t settings.hbaRules = .ok analyzer ∧
      analyzer.name = "hba_unused_lines" ∧
      ∀ cause, ¬ Faulty t settings before "hba_unused_lines" cause) ∨
    ∃ cause, unusedRules? t settings.hbaRules = .error cause ∧
      ∀ other, Faulty t settings before "hba_unused_lines" other ↔ other = cause := by
  simp only [unusedRules?, faulty_iff, ← Template.has_eq_false_iff,
    ← AddressRule.compile_eq_error_iff]
  cases t.has .host with
  | false => simp
  | true =>
    cases t.has .user with
    | false => simp
    | true =>
      cases t.has .database with
      | false => simp
      | true =>
        cases AddressRule.compile settings.hbaRules with
        | error cause => simp
        | ok rules => simp [name]

variable (t settings detector before) in
/-- A command is set up unless it is at fault. -/
theorem ofCommandAfter_cases (hknown : command ∈ commandNames) :
    (∃ analyzer, ofCommandAfter t settings detector (decide ("pii" ∈ before)) command =
      .ok analyzer ∧ analyzer.name = command ∧ ∀ cause, ¬ Faulty t settings before command cause) ∨
    ∃ cause, ofCommandAfter t settings detector (decide ("pii" ∈ before)) command = .error cause ∧
      ∀ other, Faulty t settings before command other ↔ other = cause := by
  simp only [commandNames, List.mem_cons, List.not_mem_nil, or_false] at hknown
  rcases hknown with rfl | rfl | rfl | rfl | rfl | rfl
  · simp only [ofCommandAfter_of_ne (by decide : "unique_ips" ≠ "pii"), ofCommand, faulty_iff,
      ← Template.has_eq_false_iff]
    cases t.has .host <;> cases settings.logConnections <;> simp [name]
  · simp only [ofCommandAfter_of_ne (by decide : "inactive_users" ≠ "pii"), ofCommand, faulty_iff,
      ← Template.has_eq_false_iff]
    cases t.has .user <;> cases settings.logConnections <;> simp [name]
  · simp only [ofCommandAfter_of_ne (by decide : "password_leak" ≠ "pii"), ofCommand]
    simp [faulty_iff, name]
  · simp only [ofCommandAfter_of_ne (by decide : "hba_unused_lines" ≠ "pii"), ofCommand]
    exact unusedRules?_cases
  · by_cases hbefore : "pii" ∈ before <;>
      simp [ofCommandAfter, ofCommand, faulty_iff, hbefore, name]
  · simp only [ofCommandAfter_of_ne (by decide : "sql_injection" ≠ "pii"), ofCommand]
    simp [faulty_iff, name]

variable (t settings detector) in
/-- The commands are set up in order until one of them is at fault. -/
theorem ofCommands_cases {commands : List String}
    (hknown : ∀ command ∈ commands, command ∈ commandNames) (before : List String) :
    (∃ analyzers, ofCommands t settings detector (decide ("pii" ∈ before)) commands =
      .ok analyzers ∧ analyzers.map name = commands ∧
      ∀ cause, ¬ FirstFault t settings before commands cause) ∨
    ∃ cause, ofCommands t settings detector (decide ("pii" ∈ before)) commands = .error cause ∧
      ∀ other, FirstFault t settings before commands other ↔ other = cause := by
  induction commands generalizing before with
  | nil => exact Or.inl ⟨[], rfl, rfl, fun _ => firstFault_nil⟩
  | cons command commands ih =>
    obtain ⟨hcommand, hcommands⟩ := List.forall_mem_cons.1 hknown
    have hpersonal : (decide ("pii" ∈ before) || command == "pii") =
        decide ("pii" ∈ before ++ [command]) := by
      rw [Bool.eq_iff_iff, Bool.or_eq_true, decide_eq_true_iff, decide_eq_true_iff, beq_iff_eq,
        List.mem_append, List.mem_singleton, @eq_comm _ command]
    rw [ofCommands_cons, hpersonal]
    simp only [firstFault_cons]
    rcases ofCommandAfter_cases t settings detector before hcommand with
      ⟨analyzer, hanalyzer, hname, hsound⟩ | ⟨cause, hcause, hfault⟩
    · rw [hanalyzer]
      rcases ih hcommands (before ++ [command]) with ⟨others, hothers, hnames, hnone⟩ |
        ⟨cause, hothers, hfault⟩
      · rw [hothers]
        exact Or.inl ⟨analyzer :: others, rfl, by rw [List.map_cons, hname, hnames],
          fun cause h => h.elim (hsound cause) fun h => hnone cause h.2⟩
      · rw [hothers]
        exact Or.inr ⟨cause, rfl, fun other => by simp [hsound, hfault]⟩
    · rw [hcause]
      refine Or.inr ⟨cause, rfl, fun other => ?_⟩
      have hat := (hfault cause).2 rfl
      rw [hfault]
      exact or_iff_left fun h => h.1 cause hat

/-- Before the first command nothing is searched for. -/
theorem ofSettings_eq : ofSettings t settings detector =
    ofCommands t settings detector (decide ("pii" ∈ [])) settings.commands := rfl

/-- The first command at fault decides why the analyzers are not set up. -/
theorem ofSettings_eq_error_iff (hknown : ∀ command ∈ settings.commands, command ∈ commandNames)
    {cause : SetupError} : ofSettings t settings detector = .error cause ↔
      FirstFault t settings [] settings.commands cause := by
  rcases ofCommands_cases t settings detector hknown [] with
    ⟨analyzers, hanalyzers, -, hnone⟩ | ⟨found, hfound, hfault⟩
  · rw [ofSettings_eq, hanalyzers]
    exact ⟨fun h => absurd h nofun, fun h => absurd h (hnone cause)⟩
  · rw [ofSettings_eq, hfound, hfault, Except.error.injEq, eq_comm]

/-- There is one analyzer for each command, in order. -/
theorem map_name_ofSettings (hknown : ∀ command ∈ settings.commands, command ∈ commandNames)
    {analyzers : List Analyzer} (h : ofSettings t settings detector = .ok analyzers) :
    analyzers.map name = settings.commands := by
  rcases ofCommands_cases t settings detector hknown [] with
    ⟨found, hfound, hnames, -⟩ | ⟨cause, hcause, -⟩
  · rw [ofSettings_eq, hfound] at h
    rw [← Except.ok.inj h, hnames]
  · rw [ofSettings_eq, hcause] at h
    exact absurd h nofun

end Analyzer

end Audit

end LogAudit
