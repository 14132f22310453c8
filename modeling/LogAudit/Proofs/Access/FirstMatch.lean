import LogAudit.Proofs.Access.RuleTable
import Mathlib.Data.List.Perm.Subperm

/-!
# The first rule that matches

A connection uses the smallest line among the rules that apply to it, and the unused lines are those
of the rules that no connection used. What follows from this description alone: the order of the
rules does not count, nor do order and repetition of the connections, and more connections leave
fewer lines unused.
-/

namespace LogAudit.Access

/-- A rule as it is written applies to a connection: it has an address, one item of its databases
and one of its users is for the connection, and its clients cover the host. -/
def Rule.Applies (rule : Rule) (c : Connection) : Prop :=
  rule.address ≠ "" ∧ (∃ item ∈ listItems rule.database, DatabaseItem c item) ∧
    (∃ item ∈ listItems rule.user, UserItem c item) ∧
    ∃ clients, Clients.ofRule rule = .ok clients ∧ clients.cover c.host = true

/-- The smallest line among the written rules that apply to a connection. -/
def IsFirstMatch (rules : List Rule) (c : Connection) (line : Nat) : Prop :=
  IsLeast {l | ∃ rule ∈ rules, rule.Applies c ∧ rule.line = l} line

namespace AddressRule

/-! ## Reading rules -/

/-- A rule with an address and the form in which it was read. -/
def Reads (rule : Rule) (read : AddressRule) : Prop :=
  rule.address ≠ "" ∧ read.line = rule.line ∧ read.databases = listItems rule.database ∧
    read.users = listItems rule.user ∧ Clients.ofRule rule = .ok read.clients

/-- A rule is read in one form. -/
theorem Reads.unique {rule : Rule} {read read' : AddressRule} (h : Reads rule read)
    (h' : Reads rule read') : read = read' := by
  obtain ⟨-, hline, hdatabases, husers, hclients⟩ := h
  obtain ⟨-, hline', hdatabases', husers', hclients'⟩ := h'
  cases read
  cases read'
  rw [AddressRule.mk.injEq]
  exact ⟨hline.trans hline'.symm, hdatabases.trans hdatabases'.symm, husers.trans husers'.symm,
    Except.ok.inj (hclients.symm.trans hclients')⟩

/-- A rule with an address is read before the others. -/
theorem compile_cons_eq_ok_iff {rule : Rule} {rules : List Rule} {compiled : List AddressRule}
    (haddress : rule.address ≠ "") :
    compile (rule :: rules) = .ok compiled ↔
      ∃ read others, Reads rule read ∧ compile rules = .ok others ∧ compiled = read :: others := by
  rw [compile, if_neg haddress]
  cases hclients : Clients.ofRule rule with
  | error cause => simp [Reads, hclients, bind, Except.bind]
  | ok clients =>
    cases hothers : compile rules with
    | error cause => simp [bind, Except.bind]
    | ok others =>
      have hread : ∀ read, Reads rule read ↔
          read = ⟨rule.line, listItems rule.database, listItems rule.user, clients⟩ := by
        rintro ⟨line, databases, users, clients'⟩
        simp [Reads, haddress, hclients, @eq_comm _ clients]
      simp [hread, bind, Except.bind, pure, Except.pure, @eq_comm _ compiled]

/-- Rules are accepted exactly if those with an address have clients. -/
theorem compile_eq_ok_iff {rules : List Rule} :
    (∃ compiled, compile rules = .ok compiled) ↔
      ∀ rule ∈ rules, rule.address ≠ "" → ∃ clients, Clients.ofRule rule = .ok clients := by
  induction rules with
  | nil => simp [compile]
  | cons rule rules ih =>
    rw [List.forall_mem_cons, ← ih]
    by_cases haddress : rule.address = ""
    · simp [compile, haddress]
    · simp only [compile_cons_eq_ok_iff haddress]
      constructor
      · rintro ⟨-, read, others, hreads, hothers, rfl⟩
        exact ⟨fun _ => ⟨_, hreads.2.2.2.2⟩, others, hothers⟩
      · rintro ⟨hclients, others, hothers⟩
        obtain ⟨clients, hclients⟩ := hclients haddress
        exact ⟨_, ⟨rule.line, listItems rule.database, listItems rule.user, clients⟩, others,
          ⟨haddress, rfl, rfl, rfl, hclients⟩, hothers, rfl⟩

/-- Rules that were read stand in the order of those with an address. -/
theorem forall₂_compile {rules : List Rule} {compiled : List AddressRule}
    (h : compile rules = .ok compiled) :
    List.Forall₂ Reads (rules.filter (·.address != "")) compiled := by
  induction rules generalizing compiled with
  | nil =>
    obtain rfl := Except.ok.inj h
    exact .nil
  | cons rule rules ih =>
    by_cases haddress : rule.address = ""
    · rw [compile, if_pos haddress] at h
      rw [List.filter_cons_of_neg (by simp [haddress])]
      exact ih h
    · obtain ⟨read, others, hreads, hothers, rfl⟩ := (compile_cons_eq_ok_iff haddress).1 h
      rw [List.filter_cons_of_pos (by simpa using haddress)]
      exact .cons hreads (ih hothers)

/-- The rules that were read are those with an address. -/
theorem mem_compile {rules : List Rule} {compiled : List AddressRule}
    (h : compile rules = .ok compiled) (read : AddressRule) :
    read ∈ compiled ↔ ∃ rule ∈ rules, Reads rule read := by
  induction rules generalizing compiled with
  | nil =>
    obtain rfl := Except.ok.inj h
    simp
  | cons rule rules ih =>
    by_cases haddress : rule.address = ""
    · rw [compile, if_pos haddress] at h
      rw [ih h]
      simp [Reads, haddress]
    · obtain ⟨own, others, hown, hothers, rfl⟩ := (compile_cons_eq_ok_iff haddress).1 h
      have hhead : read = own ↔ Reads rule read := by
        constructor
        · rintro rfl
          exact hown
        · exact fun hreads => hreads.unique hown
      simp only [List.mem_cons, exists_eq_or_imp, ih hothers, hhead]

/-- A rule that was read applies to the connections to which the written one does. -/
theorem Reads.applies_iff {rule : Rule} {read : AddressRule} (h : Reads rule read)
    (c : Connection) : read.Applies c ↔ rule.Applies c := by
  obtain ⟨haddress, -, hdatabases, husers, hclients⟩ := h
  rw [Applies, Rule.Applies, hdatabases, husers, hclients]
  simp [haddress]

/-- The first line of the rules that were read is that of the written ones. -/
theorem firstLine_iff {rules : List Rule} {compiled : List AddressRule}
    (h : compile rules = .ok compiled) (c : Connection) (line : Nat) :
    FirstLine compiled c line ↔ IsFirstMatch rules c line := by
  have hset : {l | ∃ rule ∈ compiled, rule.Applies c ∧ rule.line = l} =
      {l | ∃ rule ∈ rules, rule.Applies c ∧ rule.line = l} := by
    ext l
    constructor
    · rintro ⟨read, hread, happlies, rfl⟩
      obtain ⟨rule, hrule, hreads⟩ := (mem_compile h read).1 hread
      exact ⟨rule, hrule, (hreads.applies_iff c).1 happlies, hreads.2.1.symm⟩
    · rintro ⟨rule, hrule, happlies, rfl⟩
      obtain ⟨haddress, -, -, clients, hclients, -⟩ := id happlies
      have hreads : Reads rule
          ⟨rule.line, listItems rule.database, listItems rule.user, clients⟩ :=
        ⟨haddress, rfl, rfl, rfl, hclients⟩
      exact ⟨_, (mem_compile h _).2 ⟨rule, hrule, hreads⟩,
        (hreads.applies_iff c).2 happlies, rfl⟩
  rw [FirstLine, IsFirstMatch, hset]

/-! ## Unused lines -/

/-- A line is unused if a rule is on it and it is the first line for none of the connections. -/
theorem mem_unusedLines {rules : List AddressRule} {connections : List Connection} {line : Nat} :
    line ∈ unusedLines rules connections ↔
      (∃ rule ∈ rules, rule.line = line) ∧ ¬ ∃ c ∈ connections, FirstLine rules c line := by
  have hreps := (RuleTable.represents_ofRules rules).recordAll connections
  rw [List.nil_append] at hreps
  have hlines := congrArg (line ∈ List.map Prod.fst ·) hreps.places
  simp only [List.map_map, List.mem_map, Function.comp_apply, eq_iff_iff] at hlines
  rw [unusedLines, RuleTable.mem_unusedLines, hreps.counts, hlines]

/-- Unused lines are the same where the same lines are unused. -/
theorem unusedLines_eq_of_mem_iff {rules rules' : List AddressRule}
    {connections connections' : List Connection}
    (h : ∀ line, line ∈ unusedLines rules connections ↔
      line ∈ unusedLines rules' connections') :
    unusedLines rules connections = unusedLines rules' connections' :=
  (RuleTable.pairwise_unusedLines _).eq_of_mem_iff (RuleTable.pairwise_unusedLines _) h

/-- Order and repetition of the connections do not count. -/
theorem unusedLines_congr (rules : List AddressRule) {connections connections' : List Connection}
    (h : ∀ c, c ∈ connections' ↔ c ∈ connections) :
    unusedLines rules connections' = unusedLines rules connections := by
  apply unusedLines_eq_of_mem_iff
  intro line
  simp only [mem_unusedLines, h]

/-- More connections leave fewer lines unused. -/
theorem unusedLines_append_sublist (rules : List AddressRule)
    (connections more : List Connection) :
    (unusedLines rules (connections ++ more)).Sublist (unusedLines rules connections) := by
  have hsorted := RuleTable.pairwise_unusedLines
    (connections.foldl RuleTable.record (RuleTable.ofRules rules))
  have hmore := RuleTable.pairwise_unusedLines
    ((connections ++ more).foldl RuleTable.record (RuleTable.ofRules rules))
  have hsubset : unusedLines rules (connections ++ more) ⊆ unusedLines rules connections := by
    intro line hline
    rw [mem_unusedLines] at hline ⊢
    refine ⟨hline.1, fun ⟨c, hc, hfirst⟩ => hline.2 ⟨c, ?_, hfirst⟩⟩
    exact List.mem_append_left _ hc
  have hnodup : (unusedLines rules (connections ++ more)).Nodup := hmore.imp Nat.ne_of_lt
  exact List.sublist_of_subperm_of_sortedLE (List.subperm_of_subset hnodup hsubset)
    (hmore.imp Nat.le_of_lt).sortedLE (hsorted.imp Nat.le_of_lt).sortedLE

/-- For rules that are accepted, the unused lines are, in ascending order, those of the rules with
an address that are the first match of no connection. Neither the order of the rules nor order and
repetition of the connections count, and more connections only remove lines. -/
theorem unusedLines_firstMatch {rules : List Rule} {compiled : List AddressRule}
    (h : compile rules = .ok compiled) (connections : List Connection) :
    (unusedLines compiled connections).Pairwise (· < ·) ∧
      (∀ line, line ∈ unusedLines compiled connections ↔
        (∃ rule ∈ rules, rule.address ≠ "" ∧ rule.line = line) ∧
          ∀ c ∈ connections, ¬ IsFirstMatch rules c line) ∧
      (∀ rules' : List Rule, rules'.Perm rules → ∃ compiled', compile rules' = .ok compiled' ∧
        unusedLines compiled' connections = unusedLines compiled connections) ∧
      (∀ connections' : List Connection, (∀ c, c ∈ connections' ↔ c ∈ connections) →
        unusedLines compiled connections' = unusedLines compiled connections) ∧
      ∀ more, (unusedLines compiled (connections ++ more)).Sublist
        (unusedLines compiled connections) := by
  have hmem : ∀ {rules : List Rule} {compiled : List AddressRule}, compile rules = .ok compiled →
      ∀ line, line ∈ unusedLines compiled connections ↔
        (∃ rule ∈ rules, rule.address ≠ "" ∧ rule.line = line) ∧
          ∀ c ∈ connections, ¬ IsFirstMatch rules c line := by
    intro rules compiled hcompile line
    have haccepted := compile_eq_ok_iff.1 ⟨compiled, hcompile⟩
    rw [mem_unusedLines]
    refine and_congr ?_ ?_
    · constructor
      · rintro ⟨read, hread, rfl⟩
        obtain ⟨rule, hrule, hreads⟩ := (mem_compile hcompile read).1 hread
        exact ⟨rule, hrule, hreads.1, hreads.2.1.symm⟩
      · rintro ⟨rule, hrule, haddress, rfl⟩
        obtain ⟨clients, hclients⟩ := haccepted rule hrule haddress
        exact ⟨⟨rule.line, listItems rule.database, listItems rule.user, clients⟩,
          (mem_compile hcompile _).2 ⟨rule, hrule, haddress, rfl, rfl, rfl, hclients⟩, rfl⟩
    · simp only [firstLine_iff hcompile, not_exists, not_and]
  refine ⟨RuleTable.pairwise_unusedLines _, hmem h, ?_, fun _ => unusedLines_congr compiled,
    unusedLines_append_sublist compiled connections⟩
  intro rules' hperm
  obtain ⟨compiled', hcompile'⟩ : ∃ compiled', compile rules' = .ok compiled' := by
    rw [compile_eq_ok_iff]
    exact fun rule hrule => compile_eq_ok_iff.1 ⟨compiled, h⟩ rule (hperm.mem_iff.1 hrule)
  refine ⟨compiled', hcompile', unusedLines_eq_of_mem_iff fun line => ?_⟩
  have hfirst : ∀ c, IsFirstMatch rules' c line ↔ IsFirstMatch rules c line := by
    intro c
    simp only [IsFirstMatch, hperm.mem_iff]
  rw [hmem hcompile', hmem h]
  simp only [hperm.mem_iff, hfirst]

/-- Rules out of order, two of them on one line and one for local clients only. -/
def sharedLineRules : List Rule :=
  [⟨7, "all", "all", "all", none⟩, ⟨3, "app,,all", "bob", "10.0.0.0/8", none⟩,
    ⟨3, "sameuser", "all", "samehost", none⟩, ⟨9, "app", "eve", "", none⟩]

/-- A connection to a named database uses the shared line and leaves the catch-all line unused. -/
theorem unusedLines_firstMatch_sharedLine :
    ∃ compiled, compile sharedLineRules = .ok compiled ∧
      ∀ line, line ∈ unusedLines compiled [⟨"app", "bob", "10.1.2.3"⟩] ↔ line = 7 := by
  have hcompile : compile sharedLineRules = .ok [⟨7, ["all"], ["all"], .all⟩,
      ⟨3, ["app", "all"], ["bob"], .block ⟨.v4 0x0a000000, 8⟩⟩,
      ⟨3, ["sameuser"], ["all"], .sameHost⟩] := by decide +kernel
  have hfirst : IsFirstMatch sharedLineRules ⟨"app", "bob", "10.1.2.3"⟩ 3 := by
    constructor
    · exact ⟨⟨3, "app,,all", "bob", "10.0.0.0/8", none⟩, by decide, ⟨by decide,
        ⟨"app", by decide +kernel, Or.inl rfl⟩, ⟨"bob", by decide +kernel, Or.inl rfl⟩,
        ⟨.block ⟨.v4 0x0a000000, 8⟩, by decide +kernel, by decide +kernel⟩⟩, rfl⟩
    · rintro l ⟨rule, hrule, -, rfl⟩
      simp only [sharedLineRules, List.mem_cons, List.not_mem_nil, or_false] at hrule
      rcases hrule with rfl | rfl | rfl | rfl <;> decide
  refine ⟨_, hcompile, fun line => ?_⟩
  rw [(unusedLines_firstMatch hcompile _).2.1 line]
  constructor
  · rintro ⟨⟨rule, hrule, haddress, rfl⟩, hunused⟩
    simp only [sharedLineRules, List.mem_cons, List.not_mem_nil, or_false] at hrule
    rcases hrule with rfl | rfl | rfl | rfl
    · rfl
    · exact absurd hfirst (hunused _ List.mem_cons_self)
    · exact absurd hfirst (hunused _ List.mem_cons_self)
    · exact absurd rfl haddress
  · rintro rfl
    refine ⟨⟨⟨7, "all", "all", "all", none⟩, by decide, by decide, rfl⟩, ?_⟩
    intro c hc hseven
    obtain rfl := List.mem_singleton.1 hc
    exact absurd (hfirst.unique hseven) (by decide)

end AddressRule

end LogAudit.Access
