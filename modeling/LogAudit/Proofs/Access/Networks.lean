import LogAudit.Proofs.Network.Reading
import LogAudit.Proofs.Text.Search
import LogAudit.Run

/-!
# Rules for networks

A rule names a network by an address and a mask or by an address and a number of bits, which of the
two being told by what the address looks like (`startsIn_blockPattern_iff`). Both ways lead to the
same block (`Rule.network_of_mask_or_length`), and a block is for the hosts that are addresses in it
(`cover_block_iff`). What stands for no network keeps a run from being planned.
-/

namespace LogAudit.Access

open LogAudit.Text LogAudit.Network

/-- The mask that is written in a rule. -/
def Rule.mask? (rule : Rule) : Option String := rule.netmask.filter (· != "")

/-- Addresses that are no addresses of hosts, but have a meaning of their own. -/
def keywords : List String := ["all", "samehost", "samenet", "localhost"]

namespace Clients

/-! ## What looks like a block -/

/-- Up to three decimal digits. -/
structure IsShort (digits : List Char) : Prop where
  ne_nil : digits ≠ []
  length_le : digits.length ≤ 3
  isDecimal : ∀ c ∈ digits, isDecimal c = true

/-- What stands in front of the slash where an address looks like a block. -/
def LooksLikeAddress (s : List Char) : Prop :=
  (∃ w x y z, IsShort w ∧ IsShort x ∧ IsShort y ∧ IsShort z ∧
    s = w ++ '.' :: (x ++ '.' :: (y ++ '.' :: z))) ∨
  s ≠ [] ∧ ∀ c ∈ s, (Address.isDigit 16 c || c == ':') = true

theorem reads_short_iff {s rest : List Char} :
    (Pattern.sequence
        [.one isDecimal, .optional (.one isDecimal), .optional (.one isDecimal)]).Reads s rest ↔
      ∃ digits, IsShort digits ∧ s = digits ++ rest := by
  constructor
  · rintro ⟨_, ⟨c, hc, rfl⟩, _, ⟨d, hd, rfl⟩ | rfl, ⟨e, he, rfl⟩ | rfl⟩
    · exact ⟨[c, d, e], ⟨by simp, by simp, by simp [hc, hd, he]⟩, rfl⟩
    · exact ⟨[c, d], ⟨by simp, by simp, by simp [hc, hd]⟩, rfl⟩
    · exact ⟨[c, e], ⟨by simp, by simp, by simp [hc, he]⟩, rfl⟩
    · exact ⟨[c], ⟨by simp, by simp, by simp [hc]⟩, rfl⟩
  · rintro ⟨digits, ⟨hne, hle, hdigits⟩, rfl⟩
    match digits, hne, hle, hdigits with
    | [c], _, _, h => exact ⟨_, ⟨c, h c (by simp), rfl⟩, _, .inr rfl, .inr rfl⟩
    | [c, d], _, _, h =>
      exact ⟨_, ⟨c, h c (by simp), rfl⟩, _, .inl ⟨d, h d (by simp), rfl⟩, .inr rfl⟩
    | [c, d, e], _, _, h =>
      exact ⟨_, ⟨c, h c (by simp), rfl⟩, _, .inl ⟨d, h d (by simp), rfl⟩,
        .inl ⟨e, h e (by simp), rfl⟩⟩

/-- A block looks like an address, a slash and decimal digits. -/
theorem startsIn_blockPattern_iff {s : List Char} :
    blockPattern.startsIn s = true ↔ ∃ front t, s = front ++ '/' :: t ∧ LooksLikeAddress front ∧
      t ≠ [] ∧ ∀ c ∈ t, isDecimal c = true := by
  have hreads : blockPattern.startsIn s = true ↔ ∃ rest, blockPattern.Reads s rest := by
    rw [Pattern.startsIn, Option.isSome_iff_ne_none, ne_eq, Pattern.matchStart_eq_none_iff]
    simp
  rw [hreads]
  constructor
  · rintro ⟨rest, middle, haddress, _, hslash, _, hdigits, rfl, rfl⟩
    obtain ⟨t, hsplit, hne, ht⟩ := Pattern.reads_atLeastOne_iff.1 hdigits
    rw [List.append_nil] at hsplit
    obtain rfl := hsplit.symm
    obtain rfl := Pattern.reads_char_iff.1 hslash
    rcases haddress with ⟨_, hfirst, _, hpoint, _, hsecond, _, hpoint', _, hthird, _, hpoint'',
      hfourth⟩ | haddress
    · obtain ⟨w, hw, rfl⟩ := reads_short_iff.1 hfirst
      obtain rfl := Pattern.reads_char_iff.1 hpoint
      obtain ⟨x, hx, rfl⟩ := reads_short_iff.1 hsecond
      obtain rfl := Pattern.reads_char_iff.1 hpoint'
      obtain ⟨y, hy, rfl⟩ := reads_short_iff.1 hthird
      obtain rfl := Pattern.reads_char_iff.1 hpoint''
      obtain ⟨z, hz, rfl⟩ := reads_short_iff.1 hfourth
      exact ⟨_, t, by simp, .inl ⟨w, x, y, z, hw, hx, hy, hz, rfl⟩, hne, ht⟩
    · obtain ⟨front, rfl, hfront, hsigns⟩ := Pattern.reads_atLeastOne_iff.1 haddress
      exact ⟨front, t, rfl, .inr ⟨hfront, hsigns⟩, hne, ht⟩
  · rintro ⟨front, t, rfl, haddress, hne, ht⟩
    refine ⟨[], '/' :: t, ?_, _, Pattern.reads_char_iff.2 rfl, [],
      Pattern.reads_atLeastOne_iff.2 ⟨t, (List.append_nil t).symm, hne, ht⟩, rfl, rfl⟩
    rcases haddress with ⟨w, x, y, z, hw, hx, hy, hz, rfl⟩ | ⟨hfront, hsigns⟩
    · refine .inl ⟨_, reads_short_iff.2 ⟨w, hw, List.append_assoc _ _ _⟩,
        _, Pattern.reads_char_iff.2 rfl, _, reads_short_iff.2 ⟨x, hx, List.append_assoc _ _ _⟩,
        _, Pattern.reads_char_iff.2 rfl, _, reads_short_iff.2 ⟨y, hy, List.append_assoc _ _ _⟩,
        _, Pattern.reads_char_iff.2 rfl, reads_short_iff.2 ⟨z, hz, rfl⟩⟩
    · exact .inr (Pattern.reads_atLeastOne_iff.2 ⟨front, rfl, hfront, hsigns⟩)

theorem isDecimal_of_isDigit {c : Char} (h : c.isDigit = true) : isDecimal c = true := by
  have hrange := Address.isDigit_char_iff.1 h
  rw [isDecimal, if_pos (by omega), h]

/-- The addresses that look like one are those in which no dotted number is embedded. -/
theorem looksLikeAddress_iff {text : String} {a : Address} (h : Address.parse? text = some a) :
    LooksLikeAddress text.toList ↔ (∃ bits, a = .v4 bits) ∨ '.' ∉ text.toList := by
  constructor
  · intro hlooks
    cases a with
    | v4 bits => exact .inl ⟨bits, rfl⟩
    | v6 bits =>
      right
      have hcolon := Address.colon_mem_of_v6 h
      rcases hlooks with ⟨w, x, y, z, hw, hx, hy, hz, htext⟩ | ⟨-, hsigns⟩
      · have hnone : ∀ {digits}, IsShort digits → ':' ∉ digits := fun hdigits hc =>
          absurd (hdigits.isDecimal _ hc) (by decide)
        rw [htext] at hcolon
        simp [hnone hw, hnone hx, hnone hy, hnone hz] at hcolon
      · exact fun hc => absurd (hsigns _ hc) (by decide)
  · rintro (⟨bits, rfl⟩ | hpoint)
    · have hshort : ∀ {digits}, Address.IsOctet digits → IsShort digits := fun hdigits =>
        ⟨hdigits.ne_nil, hdigits.length_le,
          fun c hc => isDecimal_of_isDigit (hdigits.isDigit c hc)⟩
      obtain ⟨w, x, y, z, hw, hx, hy, hz, htext⟩ := Address.isDotted_of_v4 h
      exact .inl ⟨w, x, y, z, hshort hw, hshort hx, hshort hy, hshort hz, htext⟩
    · refine .inr ⟨Address.ne_empty_of_parse? h, fun c hc => ?_⟩
      have hsign := Address.isSign_of_parse? h c hc
      have hne : c ≠ '.' := fun he => hpoint (he ▸ hc)
      simpa [Address.isSign, hne] using hsign

/-! ## The clients of a rule -/

section OfRule

variable {rule : Rule}

/-- A rule without a keyword is read by its mask, or else by what its address looks like. -/
theorem ofRule_eq (hkeyword : rule.address ∉ keywords) :
    ofRule rule =
      match rule.mask? with
      | some mask =>
        match (do Block.ofMask? (← Address.parse? rule.address) (← Address.parse? mask)) with
        | some addresses => .ok (.block addresses)
        | none => .error (.netmask rule.line rule.address mask)
      | none =>
        if blockPattern.startsIn rule.address.toList then
          match Block.parse? rule.address with
          | some addresses => .ok (.block addresses)
          | none => .error (.address rule.line rule.address)
        else .ok (.naming rule.address) := by
  simp only [keywords, List.mem_cons, List.not_mem_nil, or_false, not_or] at hkeyword
  obtain ⟨hall, hhost, hnetwork, hlocal⟩ := hkeyword
  unfold ofRule
  split
  · exact absurd ‹_› hall
  · exact absurd ‹_› hhost
  · exact absurd ‹_› hnetwork
  · exact absurd ‹_› hlocal
  · rfl

theorem notMem_keywords_of_parse? {text : String} {a : Address}
    (h : Address.parse? text = some a) : text ∉ keywords := by
  have hnone : ∀ word ∈ keywords, Address.parse? word = none := by decide +kernel
  intro hkeyword
  rw [hnone text hkeyword] at h
  exact absurd h (by simp)

theorem notMem_keywords_of_slash {text : String} (h : '/' ∈ text.toList) : text ∉ keywords := by
  have hnone : ∀ word ∈ keywords, '/' ∉ word.toList := by decide +kernel
  exact fun hkeyword => hnone text hkeyword h

/-- The block of a rule with a mask, which has to be one of the family of the address. -/
theorem ofRule_mask_eq_ok_iff {mask : String} (hkeyword : rule.address ∉ keywords)
    (hmask : rule.mask? = some mask) {clients : Clients} :
    ofRule rule = .ok clients ↔ ∃ a b length, Address.parse? rule.address = some a ∧
      Address.parse? mask = some b ∧ a.width = b.width ∧ b.IsMask length ∧
        clients = .block ⟨a, length⟩ := by
  have hread : ∀ read : Option Block,
      (match read with
        | some addresses => Except.ok (Clients.block addresses)
        | none => .error (RuleError.netmask rule.line rule.address mask)) = .ok clients ↔
        ∃ block, read = some block ∧ clients = .block block := by
    intro read
    cases read <;> simp [@eq_comm Clients]
  rw [ofRule_eq hkeyword, hmask]
  simp only [hread, Option.bind_eq_bind, Option.bind_eq_some_iff, Block.ofMask?_eq_some_iff]
  constructor
  · rintro ⟨_, ⟨a, ha, b, hb, length, hwidth, hlength, rfl⟩, rfl⟩
    exact ⟨a, b, length, ha, hb, hwidth, hlength, rfl⟩
  · rintro ⟨a, b, length, ha, hb, hwidth, hlength, rfl⟩
    exact ⟨_, ⟨a, ha, b, hb, length, hwidth, hlength, rfl⟩, rfl⟩

/-- A rule with a mask that gives no block is refused with its line, its address and its mask. -/
theorem ofRule_mask_eq_error {mask : String} (hkeyword : rule.address ∉ keywords)
    (hmask : rule.mask? = some mask) {cause : RuleError} (h : ofRule rule = .error cause) :
    cause = .netmask rule.line rule.address mask := by
  rw [ofRule_eq hkeyword, hmask] at h
  simp only at h
  split at h
  · exact absurd h (by simp)
  · exact (Except.error.inj h).symm

/-- A block is for the hosts that are addresses in it. -/
theorem cover_block_iff {block : Block} (h : block.length ≤ block.address.width) (host : String) :
    cover host (.block block) = true ↔
      ∃ b, Address.parse? host = some b ∧ block.address.Agrees block.length b := by
  rw [cover, Option.any_eq_true]
  simp only [Block.contains_iff h]

/-- The block of a rule with a number of bits. -/
theorem ofRule_length_eq_ok {a : Address} {text : String} {length : Nat}
    (ha : Address.parse? text = some a) (hpoint : (∃ bits, a = .v4 bits) ∨ '.' ∉ text.toList)
    (hle : length ≤ a.width) (haddress : rule.address = text ++ "/" ++ toString length)
    (hmask : rule.mask? = none) : ofRule rule = .ok (.block ⟨a, length⟩) := by
  have hdigits : ∀ c ∈ Nat.toDigits 10 length, c.isDigit = true :=
    fun c hc => Nat.isDigit_of_mem_toDigits (by decide) (by decide) hc
  have hshort := Block.length_toDigits_le hle
  have hne : Nat.toDigits 10 length ≠ [] := Nat.toDigits_ne_nil
  have hpoint' : '.' ∉ Nat.toDigits 10 length := fun hc => absurd (hdigits _ hc) (by decide)
  have hlist : rule.address = text ++ "/" ++ String.ofList (Nat.toDigits 10 length) := by
    rw [haddress, ← Nat.repr_eq_ofList_toDigits]
    rfl
  have hchars : rule.address.toList = text.toList ++ '/' :: Nat.toDigits 10 length := by
    simp [hlist]
  have hlooks : blockPattern.startsIn rule.address.toList = true :=
    startsIn_blockPattern_iff.2 ⟨_, _, hchars, (looksLikeAddress_iff ha).2 hpoint, hne,
      fun c hc => isDecimal_of_isDigit (hdigits c hc)⟩
  have hread : Block.parse? rule.address = some ⟨a, length⟩ := by
    rw [hlist, Block.parse?_slash ha hpoint hpoint']
    refine ⟨length, ?_, hle, rfl⟩
    rw [Address.number_digits hne hshort hdigits,
      Nat.ofDigitChars_toDigits (by decide) (by decide)]
  rw [ofRule_eq (notMem_keywords_of_slash (by simp [hchars])), hmask]
  simp only [hlooks, if_true, hread]

end OfRule

end Clients

/-- A rule that gives no clients keeps a run from being planned: the configuration is at fault. -/
theorem Rule.plan_refused {rule : Rule} {cause : RuleError} (haddress : rule.address ≠ "")
    (hcause : Clients.ofRule rule = .error cause) {settings : Settings} {limits : Limits}
    {detector : Audit.Detector} {template : Line.Template} {others : List Rule}
    (htemplate : Line.Template.ofString? settings.template = .ok template)
    (hhost : template.has .host = true) (huser : template.has .user = true)
    (hdatabase : template.has .database = true)
    (hcommands : settings.commands = ["hba_unused_lines"])
    (hrules : settings.hbaRules = rule :: others) :
    Plan.ofSettings settings limits detector = .error (.config cause.message) := by
  have hcompile : AddressRule.compile (rule :: others) = .error cause := by
    rw [AddressRule.compile, if_neg haddress, hcause]
    rfl
  have hanalyzer : Audit.Analyzer.ofSettings template settings detector = .error (.rule cause) := by
    simp only [Audit.Analyzer.ofSettings, hcommands, Audit.Analyzer.ofCommands, Bool.false_and,
      Bool.false_eq_true, if_false, Audit.Analyzer.ofCommand, Audit.Analyzer.unusedRules?, hhost,
      huser, hdatabase, Bool.and_self, Bool.not_true, hrules, hcompile]
    rfl
  rw [Plan.ofSettings, htemplate]
  simp only [hanalyzer]
  rfl

/-- A mask of ones in front and the number of these ones denote one network. Whether a rule has an
address and a mask or the address and the number of bits behind a slash, it is for exactly the hosts
that are addresses of the same family with the same first bits. A rule with a mask and without a
keyword is refused, as an error of the configuration, unless its address is one, and its mask is one
of the same family and a run of ones before zeros. -/
theorem Rule.network_of_mask_or_length :
    (∀ (rule rule' : Rule) (a b : Address) (mask : String) (length : Nat),
      Address.parse? rule.address = some a →
      ((∃ bits, a = .v4 bits) ∨ '.' ∉ rule.address.toList) → length ≤ a.width →
      rule.mask? = some mask → Address.parse? mask = some b → a.width = b.width →
      b.IsMask length →
      rule'.address = rule.address ++ "/" ++ toString length → rule'.mask? = none →
      ∃ clients, Clients.ofRule rule = .ok clients ∧ Clients.ofRule rule' = .ok clients ∧
        ∀ host, clients.cover host = true ↔
          ∃ ip, Address.parse? host = some ip ∧ a.Agrees length ip) ∧
    ∀ (rule : Rule) (mask : String), rule.address ∉ keywords → rule.mask? = some mask →
      (¬ ∃ a b length, Address.parse? rule.address = some a ∧ Address.parse? mask = some b ∧
        a.width = b.width ∧ b.IsMask length) →
      Clients.ofRule rule = .error (.netmask rule.line rule.address mask) ∧
      ∀ (settings : Settings) (limits : Limits) (detector : Audit.Detector)
        (template : Line.Template) (others : List Rule),
        Line.Template.ofString? settings.template = .ok template →
        template.has .host = true → template.has .user = true → template.has .database = true →
        settings.commands = ["hba_unused_lines"] → settings.hbaRules = rule :: others →
        rule.address ≠ "" →
        Plan.ofSettings settings limits detector =
          .error (.config (RuleError.netmask rule.line rule.address mask).message) := by
  constructor
  · intro rule rule' a b mask length ha hpoint hle hmask hb hwidth hlength haddress hmask'
    have hkeyword := Clients.notMem_keywords_of_parse? ha
    refine ⟨.block ⟨a, length⟩, ?_, Clients.ofRule_length_eq_ok ha hpoint hle haddress hmask', ?_⟩
    · rw [Clients.ofRule_mask_eq_ok_iff hkeyword hmask]
      exact ⟨a, b, length, ha, hb, hwidth, hlength, rfl⟩
    · exact Clients.cover_block_iff hle
  · intro rule mask hkeyword hmask hnone
    have herror : Clients.ofRule rule = .error (.netmask rule.line rule.address mask) := by
      cases hclients : Clients.ofRule rule with
      | ok clients =>
        obtain ⟨a, b, length, ha, hb, hwidth, hlength, -⟩ :=
          (Clients.ofRule_mask_eq_ok_iff hkeyword hmask).1 hclients
        exact absurd ⟨a, b, length, ha, hb, hwidth, hlength⟩ hnone
      | error cause => rw [Clients.ofRule_mask_eq_error hkeyword hmask hclients]
    refine ⟨herror, ?_⟩
    intro settings limits detector template others htemplate hhost huser hdatabase hcommands hrules
      haddress
    exact Rule.plan_refused haddress herror htemplate hhost huser hdatabase hcommands hrules

/-- A run that asks for the unused lines of one rule, its template telling what a connection is. -/
def Rule.settings (rule : Rule) : Settings where
  template := "%u %d %h "
  logFiles := []
  start := none
  stop := none
  logConnections := false
  commands := ["hba_unused_lines"]
  hbaRules := [rule]
  knownUsers := []
  errorsOut := none

/-- A mask of ten ones and the number ten denote one network: an address near its end is in it, the
first one behind it is not. A mask with a hole is refused. -/
theorem Rule.network_of_mask_or_length_linkLocal :
    (∃ clients,
      Clients.ofRule ⟨2, "all", "all", "fe80::1:2", some "ffc0::"⟩ = .ok clients ∧
      Clients.ofRule ⟨3, "all", "all", "fe80::1:2/10", none⟩ = .ok clients ∧
      clients.cover "febf::3" = true ∧ clients.cover "fec0::" = false) ∧
    Clients.ofRule ⟨5, "all", "all", "10.0.0.1", some "255.0.255.0"⟩ =
      .error (.netmask 5 "10.0.0.1" "255.0.255.0") ∧
    Plan.ofSettings (Rule.settings ⟨5, "all", "all", "10.0.0.1", some "255.0.255.0"⟩) .default
        Audit.columnNames =
      .error (.config
        "invalid address/netmask on hba line 5: 10.0.0.1 255.0.255.0") := by
  obtain ⟨hnetwork, hrefused⟩ := Rule.network_of_mask_or_length
  constructor
  · obtain ⟨clients, hmasked, hcounted, hcover⟩ := hnetwork
      ⟨2, "all", "all", "fe80::1:2", some "ffc0::"⟩ ⟨3, "all", "all", "fe80::1:2/10", none⟩
      (.v6 0xfe800000000000000000000000010002) (.v6 0xffc00000000000000000000000000000)
      "ffc0::" 10 (by decide +kernel) (.inr (by decide +kernel)) (by decide) (by decide +kernel)
      (by decide +kernel) (by decide) (Address.isMask_iff_counted.2 (by decide +kernel))
      (by decide +kernel) rfl
    refine ⟨clients, hmasked, hcounted, (hcover _).2 ⟨.v6 0xfebf0000000000000000000000000003,
      by decide +kernel, by decide, by decide +kernel⟩, ?_⟩
    rw [Bool.eq_false_iff, Ne, hcover]
    rintro ⟨ip, hip, -, hagrees⟩
    have hread : Address.parse? "fec0::" = some (.v6 0xfec00000000000000000000000000000) := by
      decide +kernel
    obtain rfl := Option.some.inj (hread.symm.trans hip)
    exact absurd (hagrees 9 (by decide)) (by decide)
  · have hhole : ¬ ∃ a b length, Address.parse? "10.0.0.1" = some a ∧
        Address.parse? "255.0.255.0" = some b ∧ a.width = b.width ∧ b.IsMask length := by
      rintro ⟨-, b, length, -, hb, -, hmask⟩
      have hread : Address.parse? "255.0.255.0" = some (.v4 0xff00ff00) := by decide +kernel
      obtain rfl := Option.some.inj (hread.symm.trans hb)
      obtain ⟨hleading, hcount⟩ := Address.isMask_iff_counted.1 hmask
      exact absurd (hleading.trans hcount.symm) (by decide +kernel)
    obtain ⟨hrule, hplan⟩ := hrefused ⟨5, "all", "all", "10.0.0.1", some "255.0.255.0"⟩
      "255.0.255.0" (by decide) (by decide) hhole
    refine ⟨hrule, ?_⟩
    have htemplate : Line.Template.ofString? "%u %d %h " =
        .ok ⟨[.token .user, .literal ' ', .token .database, .literal ' ', .token .host,
          .literal ' '], by decide⟩ := by cbv
    have hmessage : RuleError.message (.netmask 5 "10.0.0.1" "255.0.255.0") =
        "invalid address/netmask on hba line 5: 10.0.0.1 255.0.255.0" := by decide +kernel
    rw [← hmessage]
    exact hplan _ _ _ _ [] htemplate rfl rfl rfl rfl rfl (by decide)

end LogAudit.Access
