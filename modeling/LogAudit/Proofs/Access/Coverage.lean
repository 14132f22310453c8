import LogAudit.Proofs.Access.FirstMatch
import LogAudit.Proofs.Access.Networks

/-!
# The connections that a rule serves

Counting connections changes the counts of a table and nothing else, so that in the end a slot has
counted the connections that it admits (`RuleTable.getElem?_recordAll`). For a rule whose address is
that of a network these are connections from hosts in the network. An address alone is taken for a
part of a name: its rule admits the hosts whose text holds the text of the address.
-/

namespace LogAudit.Access

open LogAudit.Network

/-! ## Texts that hold a part -/

theorem holds_iff {part s : List Char} : holds part s = true ↔ part <:+: s := by
  induction s with
  | nil => simp [holds]
  | cons c s ih => rw [holds, Bool.or_eq_true, List.isPrefixOf_iff_prefix, ih, List.infix_cons_iff]

/-! ## Counting connections -/

namespace RuleTable

section Count

variable (t : RuleTable)

/-- One more connection changes the count of the slot that admits it. -/
theorem getElem?_record (c : Connection) (slot : Nat) :
    (t.record c).rules[slot]? =
      t.rules[slot]?.map fun r =>
        { r with hits := r.hits + if t.admitting? c = some slot then 1 else 0 } := by
  unfold record
  cases hadmitting : t.admitting? c with
  | none => simp
  | some admitted =>
    rw [List.getElem?_modify]
    by_cases hslot : admitted = slot
    · simp [hslot, TableRule.hit]
    · simp [hslot]

/-- A count changes nothing about which slot admits a connection. -/
theorem admitting?_record (c other : Connection) :
    (t.record c).admitting? other = t.admitting? other := by
  have hindex : (t.record c).index = t.index := by
    unfold record
    cases t.admitting? c <;> rfl
  have hline : (t.record c).lineOf = t.lineOf := by
    funext slot
    simp [lineOf, getElem?_record, Function.comp_def]
  have hcovers : (t.record c).covers other.host = t.covers other.host := by
    funext slot
    simp [covers, getElem?_record, Option.any_map]
  rw [admitting?, admitting?, candidates, candidates, hindex, hline, hcovers]

/-- In the end a slot has counted the connections that it admits. -/
theorem getElem?_recordAll (connections : List Connection) (slot : Nat) :
    (connections.foldl record t).rules[slot]? =
      t.rules[slot]?.map fun r =>
        { r with hits := r.hits + connections.countP fun c => t.admitting? c == some slot } := by
  induction connections generalizing t with
  | nil => simp
  | cons c connections ih =>
    rw [List.foldl_cons, ih, getElem?_record, Option.map_map]
    simp only [admitting?_record, List.countP_cons, beq_iff_eq]
    congr 1
    funext r
    simp only [Function.comp_apply, TableRule.mk.injEq, true_and]
    omega

end Count

/-- The slots of a table are its rules, without a count. -/
theorem rules_ofRules (rules : List AddressRule) :
    (ofRules rules).rules = rules.map fun rule => ⟨rule.line, rule.clients, 0⟩ := by
  have hadd : ∀ t : RuleTable, (rules.foldl add t).rules =
      t.rules ++ rules.map fun rule => ⟨rule.line, rule.clients, 0⟩ := by
    induction rules with
    | nil => simp
    | cons rule rules ih =>
      intro t
      rw [List.foldl_cons, ih, add]
      simp
  rw [ofRules, hadd, List.nil_append]

end RuleTable

/-! ## Literals -/

/-- What a rule names by an address as it is written: that address alone, or the network of its
first bits, whose number is written behind a slash or as a mask. -/
inductive Rule.Literal (rule : Rule) : Address → Option Nat → Prop where
  | bare {a : Address} (address : Address.parse? rule.address = some a)
      (mask : rule.mask? = none) : rule.Literal a none
  | counted {a : Address} {text : String} {digits : List Char}
      (address : rule.address = text ++ "/" ++ String.ofList digits)
      (front : Address.parse? text = some a) (isDigit : ∀ c ∈ digits, c.isDigit = true)
      (mask : rule.mask? = none) : rule.Literal a (some (Nat.ofDigitChars 10 digits 0))
  | masked {a b : Address} {text : String} {length : Nat}
      (address : Address.parse? rule.address = some a) (mask : rule.mask? = some text)
      (ones : Address.parse? text = some b) (isMask : b.IsMask length) :
      rule.Literal a (some length)

namespace Rule.Literal

variable {rule : Rule} {a ip : Address} {clients : Clients} {host : String}

/-- An address alone does not look like a block: it is taken for a part of a name. -/
theorem ofRule_bare (h : rule.Literal a none) :
    Clients.ofRule rule = .ok (.naming rule.address) := by
  obtain ⟨haddress, hmask⟩ := h
  have hlooks : Clients.blockPattern.startsIn rule.address.toList = false := by
    rw [Bool.eq_false_iff]
    intro hlooks
    obtain ⟨front, t, hsplit, -⟩ := Clients.startsIn_blockPattern_iff.1 hlooks
    exact Address.slash_notMem_of_parse? haddress (by simp [hsplit])
  rw [Clients.ofRule_eq (Clients.notMem_keywords_of_parse? haddress), hmask]
  simp [hlooks]

/-- A rule with an address and a number of bits is for a block, or for hosts with a slash. -/
theorem ofRule_counted {text : String} {digits : List Char}
    (haddress : rule.address = text ++ "/" ++ String.ofList digits)
    (hfront : Address.parse? text = some a) (hdigits : ∀ c ∈ digits, c.isDigit = true)
    (hmask : rule.mask? = none) (hclients : Clients.ofRule rule = .ok clients) :
    (Nat.ofDigitChars 10 digits 0 ≤ a.width ∧
        clients = .block ⟨a, Nat.ofDigitChars 10 digits 0⟩) ∨
      clients = .naming rule.address := by
  have hchars : rule.address.toList = text.toList ++ '/' :: digits := by simp [haddress]
  rw [Clients.ofRule_eq (Clients.notMem_keywords_of_slash (by simp [hchars])), hmask] at hclients
  simp only at hclients
  split at hclients
  · next hlooks =>
    left
    split at hclients
    · next block hblock =>
      obtain ⟨front, t, hsplit, hfront', -⟩ := Clients.startsIn_blockPattern_iff.1 hlooks
      have hslash : '/' ∉ digits := fun hc => absurd (hdigits _ hc) (by decide)
      rw [hchars, List.append_cons_inj_of_notMem (Address.slash_notMem_of_parse? hfront)
        hslash] at hsplit
      obtain ⟨rfl, -, rfl⟩ := hsplit
      have hpoint : '.' ∉ digits := fun hc => absurd (hdigits _ hc) (by decide)
      have hfamily := (Clients.looksLikeAddress_iff hfront).1 hfront'
      rw [haddress, Block.parse?_slash hfront hfamily hpoint] at hblock
      obtain ⟨length, hnumber, hle, rfl⟩ := hblock
      obtain ⟨digits', hsplit, hne, hshort, -⟩ := Address.exists_of_number hnumber
      rw [List.append_nil] at hsplit
      subst hsplit
      rw [Address.number_digits hne hshort hdigits] at hnumber
      obtain ⟨rfl, -⟩ := Prod.mk.inj (Option.some.inj hnumber)
      exact ⟨hle, (Except.ok.inj hclients).symm⟩
    · exact absurd hclients (by simp)
  · exact .inr (Except.ok.inj hclients).symm

/-- The hosts of a network that are addresses have its first bits. -/
theorem agrees_of_cover {length : Nat} (h : rule.Literal a (some length))
    (hclients : Clients.ofRule rule = .ok clients) (hip : Address.parse? host = some ip)
    (hcover : clients.cover host = true) : a.Agrees length ip := by
  have hblock : ∀ {n : Nat}, n ≤ a.width → Clients.cover host (.block ⟨a, n⟩) = true →
      a.Agrees n ip := by
    intro n hle hcover
    obtain ⟨b, hb, hagrees⟩ := (Clients.cover_block_iff hle host).1 hcover
    obtain rfl := Option.some.inj (hb.symm.trans hip)
    exact hagrees
  cases h with
  | counted haddress hfront hdigits hmask =>
    rcases ofRule_counted haddress hfront hdigits hmask hclients with ⟨hle, rfl⟩ | rfl
    · exact hblock hle hcover
    · -- no address is written with a slash
      have hslash : '/' ∈ host.toList :=
        (holds_iff.1 hcover).subset (by simp [haddress])
      exact absurd hslash (Address.slash_notMem_of_parse? hip)
  | masked haddress hmask hones hlength =>
    obtain ⟨a', b', n, ha', hb', hwidth, hmask', rfl⟩ := (Clients.ofRule_mask_eq_ok_iff
      (Clients.notMem_keywords_of_parse? haddress) hmask).1 hclients
    obtain rfl := Option.some.inj (haddress.symm.trans ha')
    obtain rfl := Option.some.inj (hones.symm.trans hb')
    obtain rfl := hlength.unique hmask'
    exact hblock (hwidth ▸ hmask'.length_le) hcover

/-- A host that a bare address admits holds its text, with only digits around it where both are
dotted. With nothing around it the host is the address. -/
theorem text_of_cover (h : rule.Literal a none) (hclients : Clients.ofRule rule = .ok clients)
    (hip : Address.parse? host = some ip) (hcover : clients.cover host = true) :
    ∃ front back, host.toList = front ++ rule.address.toList ++ back ∧
      (front ++ back = [] → ip = a) ∧
      ((∃ bits bits', a = .v4 bits ∧ ip = .v4 bits') → ∀ c ∈ front ++ back, c.isDigit = true) := by
  obtain rfl := Except.ok.inj ((ofRule_bare h).symm.trans hclients)
  obtain ⟨front, back, hsplit⟩ := holds_iff.1 hcover
  cases h with
  | bare haddress _ =>
    refine ⟨front, back, hsplit.symm, fun hnothing => ?_, ?_⟩
    · obtain ⟨rfl, rfl⟩ := List.append_eq_nil_iff.1 hnothing
      rw [List.nil_append, List.append_nil, String.toList_inj] at hsplit
      exact Option.some.inj (hip.symm.trans (hsplit ▸ haddress))
    · rintro ⟨bits, bits', rfl, rfl⟩
      exact (Address.isDotted_of_v4 haddress).digits_around (hsplit ▸ Address.isDotted_of_v4 hip)

end Rule.Literal

/-! ## Lines used through a rule -/

/-- A rule is the one among some rules that admits a connection. -/
def Rule.Serves (rule : Rule) (rules : List Rule) (c : Connection) : Prop :=
  ∃ compiled slot, AddressRule.compile rules = .ok compiled ∧
    (rules.filter (·.address != ""))[slot]? = some rule ∧
      (RuleTable.ofRules compiled).admitting? c = some slot

namespace AddressRule

section Serves

variable {rules : List Rule} {compiled : List AddressRule}

/-- A rule that was read stands in the slot of the written one. -/
theorem exists_reads (h : compile rules = .ok compiled) {slot : Nat} {read : AddressRule}
    (hread : compiled[slot]? = some read) :
    ∃ rule, (rules.filter (·.address != ""))[slot]? = some rule ∧ Reads rule read := by
  have hforall := forall₂_compile h
  obtain ⟨hlt, hread⟩ := List.getElem?_eq_some_iff.1 hread
  have hlt' : slot < (rules.filter (·.address != "")).length := hforall.length_eq ▸ hlt
  refine ⟨_, List.getElem?_eq_getElem hlt', ?_⟩
  rw [← hread]
  exact (List.forall₂_iff_get.1 hforall).2 slot hlt' hlt

/-- In the end the slots have counted the connections that they admit. -/
theorem getElem?_counted (connections : List Connection) (slot : Nat) :
    (connections.foldl RuleTable.record (RuleTable.ofRules compiled)).rules[slot]? =
      compiled[slot]?.map fun read => ⟨read.line, read.clients,
        connections.countP fun c => (RuleTable.ofRules compiled).admitting? c == some slot⟩ := by
  rw [RuleTable.getElem?_recordAll, RuleTable.rules_ofRules, List.getElem?_map, Option.map_map]
  simp only [Function.comp_def, Nat.zero_add]

/-- The rule in a slot that admits a connection applies to it. -/
theorem applies_of_admitting {slot : Nat} {c : Connection}
    (h : (RuleTable.ofRules compiled).admitting? c = some slot) :
    ∃ read, compiled[slot]? = some read ∧ read.Applies c := by
  have hreps := RuleTable.represents_ofRules compiled
  obtain ⟨read, hread, hdatabase, huser⟩ := hreps.mem_candidates.1 (List.mem_of_find?_eq_some h)
  have hcovers := List.find?_some h
  rw [hreps.covers_eq hread] at hcovers
  exact ⟨read, hread, hdatabase, huser, hcovers⟩

theorem applies_of_serves {rule : Rule} {c : Connection} (h : rule.Serves rules c) :
    rule.Applies c := by
  obtain ⟨compiled, slot, hcompile, hrule, hadmitting⟩ := h
  obtain ⟨read, hread, happlies⟩ := applies_of_admitting hadmitting
  obtain ⟨other, hother, hreads⟩ := exists_reads hcompile hread
  obtain rfl := Option.some.inj (hrule.symm.trans hother)
  exact (hreads.applies_iff c).1 happlies

theorem mem_of_serves {rule : Rule} {c : Connection} (h : rule.Serves rules c) : rule ∈ rules := by
  obtain ⟨-, slot, -, hrule, -⟩ := h
  exact List.mem_of_mem_filter (List.mem_of_getElem? hrule)

/-- A connection is served exactly if a rule applies to it. -/
theorem exists_serves_iff (h : compile rules = .ok compiled) {c : Connection} :
    (∃ rule : Rule, rule.Serves rules c) ↔ ∃ rule ∈ rules, rule.Applies c := by
  constructor
  · rintro ⟨rule, hserves⟩
    exact ⟨rule, mem_of_serves hserves, applies_of_serves hserves⟩
  · classical
    rintro ⟨rule, hrule, happlies⟩
    have hlines : ∃ line, ∃ rule ∈ rules, rule.Applies c ∧ rule.line = line :=
      ⟨_, rule, hrule, happlies, rfl⟩
    have hfirst : FirstLine compiled c (Nat.find hlines) :=
      (firstLine_iff h c _).2 ⟨Nat.find_spec hlines, fun line => Nat.find_min' hlines⟩
    cases hadmitting : (RuleTable.ofRules compiled).admitting? c with
    | none =>
      exact absurd hfirst
        ((RuleTable.represents_ofRules compiled).not_firstLine_of_refused hadmitting _)
    | some slot =>
      obtain ⟨read, hread, -⟩ := applies_of_admitting hadmitting
      obtain ⟨other, hother, -⟩ := exists_reads h hread
      exact ⟨other, compiled, slot, h, hother, hadmitting⟩

/-- A line is used exactly if a rule on it serves one of the connections. -/
theorem notMem_unusedLines_iff (h : compile rules = .ok compiled) {connections : List Connection}
    {rule : Rule} (hrule : rule ∈ rules) (haddress : rule.address ≠ "") :
    rule.line ∉ unusedLines compiled connections ↔
      ∃ other : Rule, other.line = rule.line ∧ ∃ c ∈ connections, other.Serves rules c := by
  rw [unusedLines, RuleTable.mem_unusedLines, not_and_not_right]
  constructor
  · intro hused
    obtain ⟨clients, hclients⟩ := compile_eq_ok_iff.1 ⟨compiled, h⟩ rule hrule haddress
    obtain ⟨place, hplace⟩ := List.mem_iff_getElem?.1 ((mem_compile h
      ⟨rule.line, listItems rule.database, listItems rule.user, clients⟩).2
        ⟨rule, hrule, haddress, rfl, rfl, rfl, hclients⟩)
    have hstands := (getElem?_counted connections place).trans (by rw [hplace, Option.map_some])
    obtain ⟨r, hr, hline, hhits⟩ := hused ⟨_, List.mem_of_getElem? hstands, rfl⟩
    obtain ⟨slot, hslot⟩ := List.mem_iff_getElem?.1 hr
    rw [getElem?_counted, Option.map_eq_some_iff] at hslot
    obtain ⟨read, hread, rfl⟩ := hslot
    obtain ⟨other, hother, hreads⟩ := exists_reads h hread
    obtain ⟨c, hc, hadmitting⟩ := List.countP_pos_iff.1 hhits
    exact ⟨other, hreads.2.1.symm.trans hline, c, hc, compiled, slot, h, hother,
      eq_of_beq hadmitting⟩
  · rintro ⟨other, hline, c, hc, compiled', slot, hcompile, hother, hadmitting⟩ -
    obtain rfl := Except.ok.inj (h.symm.trans hcompile)
    obtain ⟨read, hread, -⟩ := applies_of_admitting hadmitting
    obtain ⟨other', hother', hreads⟩ := exists_reads h hread
    obtain rfl := Option.some.inj (hother.symm.trans hother')
    refine ⟨_, List.mem_of_getElem? ((getElem?_counted connections slot).trans
      (by rw [hread]; rfl)), hreads.2.1.trans hline, ?_⟩
    exact List.countP_pos_iff.2 ⟨c, hc, by simp [hadmitting]⟩

/-- For rules that are accepted, a connection is served exactly if a rule applies to it, by one that
does, and a line is used exactly if a rule on it serves a connection. From a host that is an address
a rule for a network serves only those in the network. A rule with a bare address serves only hosts
whose text holds that address: such a host is the address if nothing stands around it, and where
both are dotted, only digits can. -/
theorem served_hosts (h : compile rules = .ok compiled) (connections : List Connection) :
    (∀ c, (∃ rule : Rule, rule.Serves rules c) ↔ ∃ rule ∈ rules, rule.Applies c) ∧
    (∀ rule ∈ rules, rule.address ≠ "" →
      (rule.line ∉ unusedLines compiled connections ↔
        ∃ other : Rule, other.line = rule.line ∧ ∃ c ∈ connections, other.Serves rules c)) ∧
    ∀ (rule : Rule) (c : Connection), rule.Serves rules c → rule.Applies c ∧
      ∀ ip, Address.parse? c.host = some ip →
        (∀ a length, rule.Literal a (some length) → a.Agrees length ip) ∧
        ∀ a, rule.Literal a none →
          ∃ front back, c.host.toList = front ++ rule.address.toList ++ back ∧
            (front ++ back = [] → ip = a) ∧
            ((∃ bits bits', a = .v4 bits ∧ ip = .v4 bits') →
              ∀ d ∈ front ++ back, d.isDigit = true) := by
  refine ⟨fun c => exists_serves_iff h, fun rule => notMem_unusedLines_iff h,
    fun rule c hserves => ?_⟩
  have happlies := applies_of_serves hserves
  obtain ⟨-, -, -, clients, hclients, hcover⟩ := id happlies
  refine ⟨happlies, fun ip hip => ⟨fun a length hliteral => ?_, fun a hliteral => ?_⟩⟩
  · exact hliteral.agrees_of_cover hclients hip hcover
  · exact hliteral.text_of_cover hclients hip hcover

/-- The rule for a network. -/
def networkRule : Rule := ⟨3, "all", "all", "10.0.0.0", some "255.255.255.0"⟩

/-- The rule for an address in the network. -/
def addressRule : Rule := ⟨5, "all", "all", "10.0.0.1", none⟩

/-- The neighbour of the address is served by the rule for the network, which does not serve the
same host of the next network. -/
theorem served_hosts_neighbours :
    networkRule.Serves [networkRule, addressRule] ⟨"shop", "app", "10.0.0.2"⟩ ∧
    ¬ addressRule.Serves [networkRule, addressRule] ⟨"shop", "app", "10.0.0.2"⟩ ∧
    ¬ networkRule.Serves [networkRule, addressRule] ⟨"shop", "app", "10.0.1.2"⟩ := by
  have hcompile : compile [networkRule, addressRule] =
      .ok [⟨3, ["all"], ["all"], .block ⟨.v4 0x0a000000, 24⟩⟩,
        ⟨5, ["all"], ["all"], .naming "10.0.0.1"⟩] := by decide +kernel
  obtain ⟨hserved, -, hhosts⟩ := served_hosts hcompile []
  have happlies : networkRule.Applies ⟨"shop", "app", "10.0.0.2"⟩ :=
    ⟨by decide, ⟨"all", by decide +kernel, .inr (.inl rfl)⟩, ⟨"all", by decide +kernel, .inr rfl⟩,
      .block ⟨.v4 0x0a000000, 24⟩, by decide +kernel, by decide +kernel⟩
  have hother : ¬ addressRule.Serves [networkRule, addressRule] ⟨"shop", "app", "10.0.0.2"⟩ := by
    intro hserves
    have hip : Address.parse? "10.0.0.2" = some (.v4 0x0a000002) := by decide +kernel
    obtain ⟨front, back, hsplit, -⟩ := ((hhosts _ _ hserves).2 _ hip).2 (.v4 0x0a000001)
      (.bare (by decide +kernel) rfl)
    have hinfix : "10.0.0.1".toList <:+: "10.0.0.2".toList := ⟨front, back, hsplit.symm⟩
    exact absurd hinfix (by decide +kernel)
  refine ⟨?_, hother, fun hserves => ?_⟩
  · obtain ⟨rule, hserves⟩ := (hserved _).2 ⟨_, List.mem_cons_self, happlies⟩
    rcases List.mem_pair.1 (mem_of_serves hserves) with rfl | rfl
    · exact hserves
    · exact absurd hserves hother
  · have hip : Address.parse? "10.0.1.2" = some (.v4 0x0a000102) := by decide +kernel
    have hagrees := ((hhosts _ _ hserves).2 _ hip).1 (.v4 0x0a000000) 24
      (.masked (b := .v4 0xffffff00) (by decide +kernel) rfl (by decide +kernel)
        (Address.isMask_iff_counted.2 (by decide +kernel)))
    exact absurd (hagrees.2 23 (by decide)) (by decide)

end Serves

/-- A bare address serves a longer one that holds its text: its line is used by a connection from
another host alone. -/
theorem bare_serves_longer :
    addressRule.Literal (.v4 0x0a000001) none ∧
    Address.parse? "10.0.0.15" = some (.v4 0x0a00000f) ∧
    addressRule.Serves [addressRule] ⟨"shop", "app", "10.0.0.15"⟩ ∧
    ∃ compiled, compile [addressRule] = .ok compiled ∧ 5 ∈ unusedLines compiled [] ∧
      5 ∉ unusedLines compiled [⟨"shop", "app", "10.0.0.15"⟩] := by
  have hcompile : compile [addressRule] = .ok [⟨5, ["all"], ["all"], .naming "10.0.0.1"⟩] := by
    decide +kernel
  have happlies : addressRule.Applies ⟨"shop", "app", "10.0.0.15"⟩ :=
    ⟨by decide, ⟨"all", by decide +kernel, .inr (.inl rfl)⟩, ⟨"all", by decide +kernel, .inr rfl⟩,
      .naming "10.0.0.1", by decide +kernel, by decide +kernel⟩
  obtain ⟨rule, hserves⟩ := (exists_serves_iff hcompile).2 ⟨_, List.mem_cons_self, happlies⟩
  obtain rfl := List.mem_singleton.1 (mem_of_serves hserves)
  have hserved : addressRule ∈ [addressRule] := List.mem_cons_self
  refine ⟨.bare (by decide +kernel) rfl, by decide +kernel, hserves, _, hcompile, ?_, ?_⟩
  · rw [mem_unusedLines]
    exact ⟨⟨_, List.mem_cons_self, rfl⟩, by simp⟩
  · exact (notMem_unusedLines_iff hcompile hserved (by decide)).2
      ⟨_, rfl, _, List.mem_cons_self, hserves⟩

end AddressRule

end LogAudit.Access
