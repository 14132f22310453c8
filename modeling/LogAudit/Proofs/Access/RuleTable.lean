import LogAudit.Access.RuleTable
import Mathlib.Data.List.Induction
import Mathlib.Data.List.Sort
import Mathlib.Order.Bounds.Basic

/-!
# The table of access rules

`RuleTable.Represents` says what a table knows about the rules it was made of and the connections it
counted: its slots are the places of the rules, its index finds a slot under exactly the names of
its rule, and a line has a count exactly if it is the first line for one of the connections. Every
table is reached by adding rules and counting connections, and each step keeps the invariant.
-/

namespace LogAudit.Access

/-! ## Rules that apply -/

/-- An item of a list of databases is for a connection. -/
def DatabaseItem (c : Connection) (item : String) : Prop :=
  item = c.database ∨ item = "all" ∨
    c.database = c.user ∧ (item = "sameuser" ∨ item = "samerole")

/-- An item of a list of users is for a connection. -/
def UserItem (c : Connection) (item : String) : Prop := item = c.user ∨ item = "all"

/-- A rule that was read applies to a connection. -/
def AddressRule.Applies (rule : AddressRule) (c : Connection) : Prop :=
  (∃ item ∈ rule.databases, DatabaseItem c item) ∧ (∃ item ∈ rule.users, UserItem c item) ∧
    rule.clients.cover c.host = true

/-- The smallest line among the rules that apply to a connection. -/
def FirstLine (rules : List AddressRule) (c : Connection) (line : Nat) : Prop :=
  IsLeast {l | ∃ rule ∈ rules, rule.Applies c ∧ rule.line = l} line

/-! ## The index -/

namespace SlotIndex

@[simp]
theorem slots_empty (database user : String) : slots ∅ database user = [] := by
  simp [slots]

/-- Putting a slot under a pair of names changes what is found under that pair only. -/
theorem mem_slots_push {index : SlotIndex} {slot s : Nat} {database user d u : String} :
    s ∈ (index.push slot database user).slots d u ↔
      s ∈ index.slots d u ∨ s = slot ∧ d = database ∧ u = user := by
  by_cases hd : database = d
  · subst hd
    by_cases hu : user = u
    · subst hu
      simp [slots, push, ← Std.HashMap.getD_eq_getD_getElem?]
    · have hu' : ¬ u = user := fun h => hu h.symm
      simp [slots, push, Std.HashMap.getD_alter, hu, hu', ← Std.HashMap.getD_eq_getD_getElem?]
  · have hd' : ¬ d = database := fun h => hd h.symm
    simp [slots, push, Std.HashMap.getD_alter, hd, hd']

/-- A slot put under several users is found under each of them. -/
theorem mem_slots_pushUsers {index : SlotIndex} {slot s : Nat} {users : List String}
    {database d u : String} :
    s ∈ (index.pushUsers slot users database).slots d u ↔
      s ∈ index.slots d u ∨ s = slot ∧ d = database ∧ u ∈ users := by
  unfold pushUsers
  induction users generalizing index with
  | nil => simp
  | cons user users ih =>
    rw [List.foldl_cons, ih, mem_slots_push, List.mem_cons]
    tauto

/-- A slot put under several databases with several users is found under each pair of them. -/
theorem mem_slots_pushDatabases {index : SlotIndex} {slot s : Nat} {databases users : List String}
    {d u : String} :
    s ∈ (databases.foldl (fun index database => index.pushUsers slot users database) index).slots
        d u ↔
      s ∈ index.slots d u ∨ s = slot ∧ d ∈ databases ∧ u ∈ users := by
  induction databases generalizing index with
  | nil => simp
  | cons database databases ih =>
    rw [List.foldl_cons, ih, mem_slots_pushUsers, List.mem_cons]
    tauto

end SlotIndex

namespace RuleTable

/-- The pairs that are looked up are those of an item for the database and an item for the user. -/
theorem mem_lookups {c : Connection} {d u : String} :
    (d, u) ∈ lookups c.database c.user ↔ DatabaseItem c d ∧ UserItem c u := by
  by_cases h : c.database = c.user
  · simp only [lookups, h, if_true, DatabaseItem, UserItem, List.mem_append, List.mem_cons,
      Prod.mk.injEq, List.not_mem_nil, or_false]
    tauto
  · simp only [lookups, h, if_false, DatabaseItem, UserItem, List.mem_append, List.mem_cons,
      Prod.mk.injEq, List.not_mem_nil, or_false, false_and]
    tauto

/-! ## The invariant -/

/-- What a table knows about its rules and the connections it counted. -/
structure Represents (t : RuleTable) (rules : List AddressRule) (seen : List Connection) :
    Prop where
  /-- The slots are the places of the rules. -/
  places : t.rules.map (fun r => (r.line, r.clients)) = rules.map (fun r => (r.line, r.clients))
  /-- The index finds a slot under the names of its rule. -/
  names : ∀ slot d u, slot ∈ t.index.slots d u ↔
    ∃ rule, rules[slot]? = some rule ∧ d ∈ rule.databases ∧ u ∈ rule.users
  /-- The lines with a count are the first lines for the connections. -/
  counts : ∀ line, (∃ r ∈ t.rules, r.line = line ∧ 0 < r.hits) ↔
    ∃ c ∈ seen, FirstLine rules c line

/-- No rules and no connections. -/
theorem represents_nil : Represents ⟨[], ∅⟩ [] [] where
  places := rfl
  names := by simp
  counts := by simp

section Represents

variable {t : RuleTable} {rules : List AddressRule} {seen : List Connection}

/-- The rule in a slot has the line and the clients of the rule in that place. -/
theorem Represents.getElem? (h : t.Represents rules seen) {slot : Nat} {rule : AddressRule}
    (hrule : rules[slot]? = some rule) :
    ∃ r, t.rules[slot]? = some r ∧ r.line = rule.line ∧ r.clients = rule.clients := by
  have hplace := congrArg (·[slot]?) h.places
  simp only [List.getElem?_map, hrule, Option.map_some, Option.map_eq_some_iff,
    Prod.mk.injEq] at hplace
  exact hplace

theorem Represents.length_eq (h : t.Represents rules seen) : t.rules.length = rules.length := by
  have hlength := congrArg List.length h.places
  rwa [List.length_map, List.length_map] at hlength

theorem Represents.lineOf_eq (h : t.Represents rules seen) {slot : Nat} {rule : AddressRule}
    (hrule : rules[slot]? = some rule) : t.lineOf slot = rule.line := by
  obtain ⟨r, hr, hline, -⟩ := h.getElem? hrule
  rw [lineOf, hr, Option.map_some, Option.getD_some, hline]

theorem Represents.covers_eq (h : t.Represents rules seen) {slot : Nat} {rule : AddressRule}
    (hrule : rules[slot]? = some rule) (host : String) :
    t.covers host slot = rule.clients.cover host := by
  obtain ⟨r, hr, -, hclients⟩ := h.getElem? hrule
  rw [covers, hr, Option.any_some, hclients]

/-- The candidates are the slots of rules that name the database and the user. -/
theorem Represents.mem_candidates (h : t.Represents rules seen) {c : Connection} {slot : Nat} :
    slot ∈ t.candidates c.database c.user ↔
      ∃ rule, rules[slot]? = some rule ∧ (∃ item ∈ rule.databases, DatabaseItem c item) ∧
        ∃ item ∈ rule.users, UserItem c item := by
  rw [candidates, List.mem_mergeSort, List.mem_flatMap]
  constructor
  · rintro ⟨⟨d, u⟩, hlookup, hslot⟩
    obtain ⟨rule, hrule, hd, hu⟩ := (h.names slot d u).1 hslot
    obtain ⟨hdatabase, huser⟩ := mem_lookups.1 hlookup
    exact ⟨rule, hrule, ⟨d, hd, hdatabase⟩, ⟨u, hu, huser⟩⟩
  · rintro ⟨rule, hrule, ⟨d, hd, hdatabase⟩, ⟨u, hu, huser⟩⟩
    exact ⟨(d, u), mem_lookups.2 ⟨hdatabase, huser⟩,
      (h.names slot d u).2 ⟨rule, hrule, hd, hu⟩⟩

/-- The candidates come in the order of their lines. -/
theorem candidates_ordered (t : RuleTable) (database user : String) :
    (t.candidates database user).Pairwise fun a b => t.lineOf a ≤ t.lineOf b := by
  have hsorted : (t.candidates database user).Pairwise
      fun a b => decide (t.lineOf a ≤ t.lineOf b) = true := by
    apply List.pairwise_mergeSort
    · intro a b c hab hbc
      simp only [decide_eq_true_eq] at hab hbc ⊢
      exact hab.trans hbc
    · intro a b
      simpa using Nat.le_total (t.lineOf a) (t.lineOf b)
  exact hsorted.imp of_decide_eq_true

/-- A connection that is admitted uses the first line of the rules that apply to it. -/
theorem Represents.firstLine_of_admitting (h : t.Represents rules seen) {c : Connection}
    {slot : Nat} (hslot : t.admitting? c = some slot) : FirstLine rules c (t.lineOf slot) := by
  obtain ⟨hcovers, before, after, hsplit, hbefore⟩ := List.find?_eq_some_iff_append.1 hslot
  have hordered := t.candidates_ordered c.database c.user
  rw [hsplit, List.pairwise_append, List.pairwise_cons] at hordered
  obtain ⟨rule, hrule, hdatabase, huser⟩ := h.mem_candidates.1
    (hsplit ▸ List.mem_append_right _ List.mem_cons_self : slot ∈ t.candidates c.database c.user)
  constructor
  · refine ⟨rule, List.mem_of_getElem? hrule, ⟨hdatabase, huser, ?_⟩, (h.lineOf_eq hrule).symm⟩
    rwa [h.covers_eq hrule] at hcovers
  · rintro line ⟨other, hother, ⟨hdatabase', huser', hcovers'⟩, rfl⟩
    obtain ⟨place, hplace⟩ := List.mem_iff_getElem?.1 hother
    have hcandidate := h.mem_candidates.2 ⟨other, hplace, hdatabase', huser'⟩
    rw [← h.lineOf_eq hplace]
    rw [hsplit, List.mem_append, List.mem_cons] at hcandidate
    rcases hcandidate with hmem | rfl | hmem
    · have hrefused := hbefore place hmem
      rw [h.covers_eq hplace, hcovers'] at hrefused
      exact absurd hrefused (by simp)
    · exact le_refl _
    · exact hordered.2.1.1 place hmem

/-- A connection that is not admitted has no rule that applies to it. -/
theorem Represents.not_firstLine_of_refused (h : t.Represents rules seen) {c : Connection}
    (hnone : t.admitting? c = none) (line : Nat) : ¬ FirstLine rules c line := by
  rintro ⟨⟨rule, hrule, ⟨hdatabase, huser, hcovers⟩, -⟩, -⟩
  obtain ⟨slot, hslot⟩ := List.mem_iff_getElem?.1 hrule
  have hrefused := List.find?_eq_none.1 hnone slot
    (h.mem_candidates.2 ⟨rule, hslot, hdatabase, huser⟩)
  exact hrefused (by rw [h.covers_eq hslot, hcovers])

/-- Adding a rule before any connection was counted. -/
theorem Represents.add (h : t.Represents rules []) (rule : AddressRule) :
    (t.add rule).Represents (rules ++ [rule]) [] where
  places := by simp [RuleTable.add, h.places]
  names slot d u := by
    rw [RuleTable.add, SlotIndex.mem_slots_pushDatabases, h.names, h.length_eq]
    constructor
    · rintro (⟨other, hother, hd, hu⟩ | ⟨rfl, hd, hu⟩)
      · exact ⟨other, by rw [List.getElem?_append_left (List.getElem?_eq_some_iff.1 hother).1,
          hother], hd, hu⟩
      · exact ⟨rule, by simp, hd, hu⟩
    · rintro ⟨other, hother, hd, hu⟩
      rcases Nat.lt_or_ge slot rules.length with hlt | hge
      · rw [List.getElem?_append_left hlt] at hother
        exact Or.inl ⟨other, hother, hd, hu⟩
      · rw [List.getElem?_append_right hge, List.getElem?_singleton] at hother
        split at hother
        · obtain rfl := Option.some.inj hother
          exact Or.inr ⟨by omega, hd, hu⟩
        · exact absurd hother (by simp)
  counts line := by
    have hcounts := h.counts line
    simp only [List.not_mem_nil, false_and, exists_false, iff_false] at hcounts ⊢
    rintro ⟨r, hr, hline, hhits⟩
    rcases List.mem_append.1 hr with hr | hr
    · exact hcounts ⟨r, hr, hline, hhits⟩
    · obtain rfl := List.mem_singleton.1 hr
      exact absurd hhits (Nat.lt_irrefl 0)

/-- The table of some rules represents them. -/
theorem represents_ofRules (rules : List AddressRule) : (ofRules rules).Represents rules [] := by
  suffices h : ∀ (added : List AddressRule) (t : RuleTable) (before : List AddressRule),
      t.Represents before [] → (added.foldl RuleTable.add t).Represents (before ++ added) [] by
    exact h rules _ [] represents_nil
  intro added
  induction added with
  | nil =>
    intro t before ht
    rwa [List.append_nil]
  | cons rule added ih =>
    intro t before ht
    have hnext := ih _ _ (ht.add rule)
    rwa [List.append_assoc] at hnext

/-- A count in one slot adds its line to the lines with a count. -/
theorem counted_modify {rs : List TableRule} {slot : Nat} {hit : TableRule}
    (hhit : rs[slot]? = some hit) (line : Nat) :
    (∃ r ∈ rs.modify slot TableRule.hit, r.line = line ∧ 0 < r.hits) ↔
      (∃ r ∈ rs, r.line = line ∧ 0 < r.hits) ∨ hit.line = line := by
  constructor
  · rintro ⟨r, hr, hline, hhits⟩
    obtain ⟨place, hplace⟩ := List.mem_iff_getElem?.1 hr
    by_cases hs : slot = place
    · subst hs
      rw [List.getElem?_modify_eq, hhit] at hplace
      obtain rfl := Option.some.inj hplace
      exact Or.inr hline
    · rw [List.getElem?_modify_ne _ _ hs] at hplace
      exact Or.inl ⟨r, List.mem_of_getElem? hplace, hline, hhits⟩
  · rintro (⟨r, hr, hline, hhits⟩ | hline)
    · obtain ⟨place, hplace⟩ := List.mem_iff_getElem?.1 hr
      by_cases hs : slot = place
      · refine ⟨r.hit, List.mem_iff_getElem?.2 ⟨place, ?_⟩, hline, Nat.succ_pos _⟩
        rw [hs, List.getElem?_modify_eq, hplace]
        rfl
      · refine ⟨r, List.mem_iff_getElem?.2 ⟨place, ?_⟩, hline, hhits⟩
        rwa [List.getElem?_modify_ne _ _ hs]
    · refine ⟨hit.hit, List.mem_iff_getElem?.2 ⟨slot, ?_⟩, hline, Nat.succ_pos _⟩
      rw [List.getElem?_modify_eq, hhit]
      rfl

/-- Counting a connection. -/
theorem Represents.record (h : t.Represents rules seen) (c : Connection) :
    (t.record c).Represents rules (seen ++ [c]) := by
  have hseen : ∀ line, (∃ c' ∈ seen ++ [c], FirstLine rules c' line) ↔
      (∃ c' ∈ seen, FirstLine rules c' line) ∨ FirstLine rules c line := by
    intro line
    simp [or_and_right, exists_or]
  unfold RuleTable.record
  cases hslot : t.admitting? c with
  | none =>
    refine ⟨h.places, h.names, fun line => ?_⟩
    rw [hseen, ← h.counts]
    simp [h.not_firstLine_of_refused hslot line]
  | some slot =>
    have hfirst := h.firstLine_of_admitting hslot
    obtain ⟨rule, hrule, -⟩ := h.mem_candidates.1 (List.mem_of_find?_eq_some hslot)
    obtain ⟨r, hr, hline, -⟩ := h.getElem? hrule
    refine ⟨?_, h.names, fun line => ?_⟩
    · rw [← h.places]
      apply List.ext_getElem?
      intro place
      rw [List.getElem?_map, List.getElem?_map]
      by_cases hs : slot = place
      · rw [← hs, List.getElem?_modify_eq, hr]
        rfl
      · rw [List.getElem?_modify_ne _ _ hs]
    · rw [hseen, counted_modify hr, h.counts]
      have hiff : r.line = line ↔ FirstLine rules c line := by
        rw [hline, ← h.lineOf_eq hrule]
        exact ⟨fun he => he ▸ hfirst, fun hl => hfirst.unique hl⟩
      rw [hiff]

/-- Counting any connections. -/
theorem Represents.recordAll (h : t.Represents rules seen) (connections : List Connection) :
    (connections.foldl RuleTable.record t).Represents rules (seen ++ connections) := by
  induction connections generalizing t seen with
  | nil => simpa using h
  | cons c connections ih =>
    have hnext := ih (h.record c)
    rwa [List.append_assoc] at hnext

end Represents

/-! ## Unused lines -/

/-- The map knows the lines of the rules, and of each whether one of its rules has a count. -/
theorem getElem?_usedByLine (t : RuleTable) (line : Nat) :
    t.usedByLine[line]? =
      if t.rules.any (·.line == line) then
        some (t.rules.any fun r => r.line == line && decide (0 < r.hits))
      else none := by
  unfold usedByLine
  induction t.rules using List.reverseRecOn with
  | nil => simp
  | append_singleton rules r ih =>
    rw [List.foldl_append, List.foldl_cons, List.foldl_nil, Std.HashMap.getElem?_alter]
    by_cases hline : r.line = line
    · have hknown : (rules.any (·.line == line)) = false →
          (rules.any fun r => r.line == line && decide (0 < r.hits)) = false := by
        simp only [List.any_eq_false, Bool.and_eq_true, not_and]
        exact fun hno r hr he => absurd he (hno r hr)
      subst hline
      rw [if_pos (beq_self_eq_true _), ih]
      cases hany : rules.any (·.line == r.line) with
      | false => simp [hknown hany]
      | true => simp [hany]
    · have hother : (r.line == line) = false := by simpa using hline
      rw [if_neg (by simp [hother]), ih, List.any_append, List.any_append]
      simp only [List.any_cons, List.any_nil, hother, Bool.false_and, Bool.or_false]

/-- The unused lines are those of rules, and none of their rules has a count. -/
theorem mem_unusedLines {t : RuleTable} {line : Nat} :
    line ∈ t.unusedLines ↔
      (∃ r ∈ t.rules, r.line = line) ∧ ¬ ∃ r ∈ t.rules, r.line = line ∧ 0 < r.hits := by
  have hmap : line ∈ t.unusedLines ↔ t.usedByLine[line]? = some false := by
    simp [unusedLines, Std.HashMap.mem_toList_iff_getElem?_eq_some]
  rw [hmap, getElem?_usedByLine]
  by_cases hany : t.rules.any (·.line == line) = true
  · rw [if_pos hany, Option.some.injEq, List.any_eq_false]
    simp only [List.any_eq_true, beq_iff_eq] at hany
    simp [hany]
  · rw [if_neg hany]
    simp only [List.any_eq_true, beq_iff_eq] at hany
    simp [hany]

/-- The unused lines ascend without repetition. -/
theorem pairwise_unusedLines (t : RuleTable) : t.unusedLines.Pairwise (· < ·) := by
  have hkeys : (t.usedByLine.toList.map Prod.fst).Nodup := by
    rw [Std.HashMap.map_fst_toList_eq_keys]
    exact Std.HashMap.nodup_keys
  have hnodup : t.unusedLines.Nodup := by
    rw [unusedLines, (List.mergeSort_perm _ _).nodup_iff]
    exact hkeys.sublist (List.filter_sublist.map _)
  have hsorted : t.unusedLines.Pairwise fun a b => decide (a ≤ b) = true := by
    apply List.pairwise_mergeSort
    · intro a b c hab hbc
      simp only [decide_eq_true_eq] at hab hbc ⊢
      exact hab.trans hbc
    · intro a b
      simpa using Nat.le_total a b
  exact (hsorted.and hnodup).imp fun h => Nat.lt_of_le_of_ne (of_decide_eq_true h.1) h.2

end RuleTable

end LogAudit.Access
