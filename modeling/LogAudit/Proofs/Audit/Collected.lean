import LogAudit.Audit.Analyzer
import LogAudit.Proofs.Access.FirstMatch

/-!
# What analyzers collect

What an analyzer has collected after some records does not depend on their order, apart from the
order in the lists that keep every occurrence. Where an analyzer keeps a set, a record that was
taken before adds nothing.
-/

namespace LogAudit.Audit

open LogAudit.Text LogAudit.Line LogAudit.Access LogAudit.Sql

/-! ## Sets of texts -/

/-- What is collected is what was there and what is shown. -/
theorem TextSet.mem_collect {texts : TextSet} {shown : List String} {x : String} :
    x ∈ texts.collect shown ↔ x ∈ texts ∨ x ∈ shown := by
  unfold collect
  induction shown generalizing texts with
  | nil => simp
  | cons y shown ih =>
    rw [List.foldl_cons, ih, Std.TreeSet.mem_insert, Std.LawfulEqCmp.compare_eq_iff_eq,
      List.mem_cons]
    tauto

/-- What is collected from several records is what one of them shows. -/
theorem TextSet.mem_foldl_collect {α : Type} {texts : TextSet} (shown : α → List String)
    {records : List α} {x : String} :
    x ∈ records.foldl (fun texts r => TextSet.collect texts (shown r)) texts ↔
      x ∈ texts ∨ ∃ r ∈ records, x ∈ shown r := by
  induction records generalizing texts with
  | nil => simp
  | cons r records ih =>
    rw [List.foldl_cons, ih, mem_collect]
    simp only [List.mem_cons, exists_eq_or_imp]
    tauto

/-! ## Pairs under labels -/

namespace LabelTable

/-- A label has the pairs that were given it, in the order in which they came. -/
theorem getElem?_foldl_add (pairs : List Labelled) (label : String) :
    (pairs.foldl add (∅ : LabelTable))[label]? =
      if pairs.any (·.label == label) then
        some ((pairs.filter (·.label == label)).map Labelled.pair)
      else none := by
  induction pairs using List.reverseRecOn with
  | nil => simp
  | append_singleton pairs p ih =>
    rw [List.foldl_append, List.foldl_cons, List.foldl_nil, add, Std.TreeMap.getElem?_alter]
    by_cases hlabel : p.label = label
    · subst hlabel
      rw [if_pos (Std.ReflCmp.compare_self), ih]
      cases hany : pairs.any (·.label == p.label) with
      | false =>
        have hnone : pairs.filter (·.label == p.label) = [] := by
          simpa [List.filter_eq_nil_iff, List.any_eq_false] using hany
        simp [List.filter_append, hnone]
      | true => simp [List.filter_append, hany]
    · have hother : (p.label == label) = false := by simpa using hlabel
      rw [if_neg (by rwa [Std.LawfulEqCmp.compare_eq_iff_eq]), ih, List.any_append,
        List.filter_append]
      simp [hother]

/-- The keys of a table ascend. -/
theorem pairwise_keys (table : LabelTable) :
    (table.toList.map Prod.fst).Pairwise fun a b => compare a b = .lt :=
  List.pairwise_map.2 Std.TreeMap.ordered_keys_toList

/-- The same labels with the same pairs, the order of the pairs aside. -/
def SamePairs (labels labels' : List (String × List Pair)) : Prop :=
  List.Forall₂ (fun a b => a.1 = b.1 ∧ a.2.Perm b.2) labels labels'

/-- Tables that agree on each label, up to the order of its pairs, are listed alike. -/
theorem samePairs_toList {table table' : LabelTable}
    (hkeys : ∀ label : String, table'[label]?.isSome = table[label]?.isSome)
    (hpairs : ∀ (label : String) (pairs pairs' : List Pair), table'[label]? = some pairs' →
      table[label]? = some pairs → pairs'.Perm pairs) :
    SamePairs table'.toList table.toList := by
  have hmem : ∀ (t : LabelTable) label, label ∈ t.toList.map Prod.fst ↔ t[label]?.isSome := by
    intro t label
    rw [Std.TreeMap.map_fst_toList_eq_keys, Std.TreeMap.mem_keys,
      Std.TreeMap.isSome_getElem?_iff_mem]
  have hfirst : table'.toList.map Prod.fst = table.toList.map Prod.fst := by
    have hasymm : ∀ a b, a ∈ table'.toList.map Prod.fst → b ∈ table.toList.map Prod.fst →
        compare a b = .lt → compare b a = .lt → a = b := by
      intro a b _ _ hab hba
      exact absurd (Std.OrientedCmp.gt_of_lt hab) (by rw [hba]; decide)
    have hne : ∀ {a b : String}, compare a b = .lt → a ≠ b := by
      rintro a b hlt rfl
      exact absurd hlt (by simp)
    have hperm : (table'.toList.map Prod.fst).Perm (table.toList.map Prod.fst) := by
      refine (List.perm_ext_iff_of_nodup ?_ ?_).2 fun label => ?_
      · exact table'.pairwise_keys.imp hne
      · exact table.pairwise_keys.imp hne
      · rw [hmem, hmem, hkeys]
    exact hperm.eq_of_pairwise hasymm table'.pairwise_keys table.pairwise_keys
  have hlength : table'.toList.length = table.toList.length := by
    have h := congrArg List.length hfirst
    rwa [List.length_map, List.length_map] at h
  refine List.forall₂_iff_get.2 ⟨hlength, fun i hi hi' => ?_⟩
  have hkey : (table'.toList.get ⟨i, hi⟩).1 = (table.toList.get ⟨i, hi'⟩).1 := by
    have h := congrArg (·[i]?) hfirst
    simp only [List.getElem?_map, List.getElem?_eq_getElem hi, List.getElem?_eq_getElem hi',
      Option.map_some, Option.some.injEq] at h
    exact h
  refine ⟨hkey, hpairs (table.toList.get ⟨i, hi'⟩).1 _ _ ?_ ?_⟩
  · rw [← Std.TreeMap.mem_toList_iff_getElem?_eq_some, ← hkey]
    exact List.get_mem _ _
  · rw [← Std.TreeMap.mem_toList_iff_getElem?_eq_some]
    exact List.get_mem _ _

/-- The order in which labelled pairs come counts only within a label. -/
theorem samePairs_of_perm {pairs pairs' : List Labelled} (hperm : pairs'.Perm pairs) :
    SamePairs (pairs'.foldl add (∅ : LabelTable)).toList
      (pairs.foldl add (∅ : LabelTable)).toList := by
  have hany : ∀ label, pairs'.any (·.label == label) = pairs.any (·.label == label) := by
    intro label
    rw [Bool.eq_iff_iff, List.any_eq_true, List.any_eq_true]
    simp only [hperm.mem_iff]
  apply samePairs_toList
  · intro label
    rw [getElem?_foldl_add, getElem?_foldl_add, hany]
    split <;> rfl
  · intro label kept kept' hkept' hkept
    rw [getElem?_foldl_add] at hkept hkept'
    rw [hany] at hkept'
    split at hkept
    · rw [if_pos ‹_›, Option.some.injEq] at hkept'
      rw [← hkept', ← Option.some.inj hkept]
      exact (hperm.filter _).map _
    · exact absurd hkept (by simp)

end LabelTable

/-! ## Results -/

namespace Result

/-- The parts of results that are sets are the same. -/
def SameSets : Result → Result → Prop
  | uniqueIps ips, uniqueIps ips' => ips = ips'
  | inactiveUsers known seen inactive, inactiveUsers known' seen' inactive' =>
    known = known' ∧ seen = seen' ∧ inactive = inactive'
  | passwordLeak _, passwordLeak _ => True
  | unusedRules lines, unusedRules lines' => lines = lines'
  | personalData _, personalData _ => True
  | injection findings, injection findings' => findings = findings'
  | _, _ => False

/-- The parts of results that keep every occurrence are the same, their order aside. -/
def SameOccurrences : Result → Result → Prop
  | passwordLeak leaks, passwordLeak leaks' => leaks.Perm leaks'
  | personalData labels, personalData labels' => LabelTable.SamePairs labels labels'
  | _, _ => True

/-- The results are the same, the order of occurrences aside. -/
def Agrees (a b : Result) : Prop := a.SameSets b ∧ a.SameOccurrences b

end Result

namespace Analyzer

/-- What is collected after some records. -/
def feedAll (a : Analyzer) (state : a.State) (records : List Record) : a.State :=
  records.foldl (fun state r => (a.feed state r).1) state

/-- Whether an analyzer fails on a record does not depend on what it has collected. -/
theorem feed_snd (a : Analyzer) (state state' : a.State) (r : Record) :
    (a.feed state r).2 = (a.feed state' r).2 := by
  cases a with
  | personalData detector =>
    simp only [feed]
    cases labelledOfRecord detector r <;> rfl
  | uniqueIps inPrefix logged => rfl
  | inactiveUsers inPrefix logged known => rfl
  | passwordLeak => rfl
  | unusedRules rules => rfl
  | injection => rfl

/-- The labelled pairs that a record adds. -/
def labelledPairs (detector : Detector) (r : Record) : List Labelled :=
  (labelledOfRecord detector r).toOption.getD []

/-- The texts that a function of records shows in some of them. -/
def shownTexts (shown : Record → List String) (records : List Record) : TextSet :=
  records.foldl (fun texts r => TextSet.collect texts (shown r)) ∅

/-- The result after some records. -/
def resultOf (a : Analyzer) (records : List Record) : Result :=
  a.result (a.feedAll a.start records)

/-- The analyzer of addresses collects the hosts that records show. -/
theorem resultOf_uniqueIps (inPrefix logged : Bool) (records : List Record) :
    (uniqueIps inPrefix logged).resultOf records =
      .uniqueIps (shownTexts (fun r => (host? inPrefix logged r).toList) records).toList :=
  rfl

/-- The analyzer of users collects those that records show; the others that are known are inactive.
-/
theorem resultOf_inactiveUsers (inPrefix logged : Bool) (known : List String)
    (records : List Record) :
    (inactiveUsers inPrefix logged known).resultOf records =
      let seen := shownTexts (fun r => (user? inPrefix logged r).toList) records
      .inactiveUsers known seen.toList (inactive known seen) :=
  rfl

/-- The analyzer of passwords collects the leaks of all records. -/
theorem resultOf_passwordLeak (records : List Record) :
    passwordLeak.resultOf records =
      .passwordLeak (records.flatMap fun r => (leak? r.description).toList) := by
  have hleaks : ∀ leaks : List Leak,
      records.foldl (fun leaks r => List.append leaks (leak? r.description).toList) leaks =
        leaks ++ records.flatMap fun r => (leak? r.description).toList := by
    induction records with
    | nil => exact fun leaks => (List.append_nil leaks).symm
    | cons r records ih =>
      intro leaks
      rw [List.flatMap_cons, ← List.append_assoc]
      exact ih _
  exact congrArg Result.passwordLeak (hleaks [])

/-- The analyzer of rules collects the connections that records show. -/
theorem resultOf_unusedRules (rules : List AddressRule) (records : List Record) :
    (unusedRules rules).resultOf records =
      .unusedRules (AddressRule.unusedLines rules
        (records.flatMap fun r => (connection? r).toList)) := by
  rw [AddressRule.unusedLines, List.foldl_flatMap]
  rfl

/-- The analyzer of personal data collects the labels of all records. -/
theorem resultOf_personalData (detector : Detector) (records : List Record) :
    (personalData detector).resultOf records =
      .personalData (byLabel (records.flatMap (labelledPairs detector))) := by
  have hfeed : ∀ (labels : LabelTable) (r : Record), ((personalData detector).feed labels r).1 =
      (labelledPairs detector r).foldl LabelTable.add labels := by
    intro labels r
    simp only [feed, labelledPairs]
    cases labelledOfRecord detector r <;> rfl
  have hlabels : ∀ labels : LabelTable, (personalData detector).feedAll labels records =
      (records.flatMap (labelledPairs detector)).foldl LabelTable.add labels := by
    induction records with
    | nil => exact fun labels => rfl
    | cons r records ih =>
      intro labels
      rw [List.flatMap_cons, List.foldl_append, ← ih, ← hfeed]
      rfl
  exact congrArg (fun labels : LabelTable => Result.personalData labels.toList) (hlabels ∅)

/-- The analyzer of injections collects the findings that records show. -/
theorem resultOf_injection (records : List Record) :
    injection.resultOf records = .injection (shownTexts findings records).toList := by
  have hfeed : injection.feedAll injection.start records = shownTexts findings records := by
    unfold feedAll shownTexts
    rfl
  exact congrArg (fun texts : TextSet => Result.injection texts.toList) hfeed

/-- Texts that are shown in the same records are listed in the same way. -/
theorem equiv_shownTexts (shown : Record → List String) {records records' : List Record}
    (h : ∀ r, r ∈ records' ↔ r ∈ records) :
    (shownTexts shown records').Equiv (shownTexts shown records) := by
  apply Std.TreeSet.Equiv.of_forall_mem_iff
  intro x
  simp only [shownTexts, TextSet.mem_foldl_collect, h]

/-- The sets in a result are those of the records, whatever their order and however often each
came. -/
theorem sameSets_of_mem_iff (a : Analyzer) {records records' : List Record}
    (h : ∀ r, r ∈ records' ↔ r ∈ records) :
    (a.resultOf records').SameSets (a.resultOf records) := by
  cases a with
  | uniqueIps inPrefix logged =>
    rw [resultOf_uniqueIps, resultOf_uniqueIps]
    exact (equiv_shownTexts _ h).toList_eq
  | inactiveUsers inPrefix logged known =>
    have hseen := equiv_shownTexts (fun r => (user? inPrefix logged r).toList) h
    rw [resultOf_inactiveUsers, resultOf_inactiveUsers]
    refine ⟨rfl, hseen.toList_eq, ?_⟩
    simp only [inactive, hseen.contains_eq]
  | passwordLeak => trivial
  | unusedRules rules =>
    rw [resultOf_unusedRules, resultOf_unusedRules]
    apply AddressRule.unusedLines_congr rules
    intro c
    simp only [List.mem_flatMap, h]
  | personalData detector => trivial
  | injection =>
    rw [resultOf_injection, resultOf_injection]
    exact (equiv_shownTexts _ h).toList_eq

/-- The occurrences in a result are those of the records, their order aside. -/
theorem sameOccurrences_of_perm (a : Analyzer) {records records' : List Record}
    (hperm : records'.Perm records) :
    (a.resultOf records').SameOccurrences (a.resultOf records) := by
  cases a with
  | passwordLeak =>
    rw [resultOf_passwordLeak, resultOf_passwordLeak]
    exact hperm.flatMap_right _
  | personalData detector =>
    rw [resultOf_personalData, resultOf_personalData]
    exact LabelTable.samePairs_of_perm (hperm.flatMap_right _)
  | uniqueIps inPrefix logged => trivial
  | inactiveUsers inPrefix logged known => trivial
  | unusedRules rules => trivial
  | injection => trivial

/-- The order of the records does not count. -/
theorem agrees_of_perm (a : Analyzer) {records records' : List Record}
    (hperm : records'.Perm records) : (a.resultOf records').Agrees (a.resultOf records) :=
  ⟨a.sameSets_of_mem_iff fun _ => hperm.mem_iff, a.sameOccurrences_of_perm hperm⟩

end Analyzer

end LogAudit.Audit
