import LogAudit.Audit.Analyzer
import LogAudit.Audit.Collector
import LogAudit.Proofs.Audit.Collected

/-!
# Statements that count as a whole

A statement that fails, or on which the detector fails or breaks off, leaves the table as it was;
any other statement adds each of its pairs that was given a label. What a collector holds after some
statements is what was given in those that did not fail, one after the other.
-/

namespace LogAudit.Audit

open LogAudit.Sql LogAudit.Line

/-! ## What is said of pairs -/

/-- The pairs of a statement. The empty text has none. -/
def pairsOfStatement (sql : String) : Except ExtractError (List Pair) :=
  if sql = "" then .ok [] else (extract Statement.readAll sql).map PairCollection.pairs

/-- A pair and what the detector says of it. -/
abbrev Answer := Pair × Except Stop (Option String)

/-- What is said of each pair, if all are asked about in order. -/
def answers (adviser : Adviser) : List Pair → List Pair → List Answer
  | _, [] => []
  | asked, pair :: pairs =>
    (pair, adviser asked pair.column pair.value) :: answers adviser (pair :: asked) pairs

/-- The pairs that were given the label, in order. -/
def under (label : String) (said : List Answer) : List Pair :=
  (said.filter fun (_, answer) => answer = .ok (some label)).map Prod.fst

/-- The labelled pair of an answer, if there is one. -/
def Answer.labelled? : Answer → Option Labelled
  | (pair, .ok label) => Labelled.of? pair label
  | (_, .error _) => none

/-- The detector answers for each of the pairs. -/
def Answered (said : List Answer) : Prop := ∀ a ∈ said, a.2.isOk

instance decidableAnswered : DecidablePred Answered :=
  fun said => inferInstanceAs (Decidable (∀ a ∈ said, a.2.isOk))

/-- The labelled pair of an answer has the label if the pair was given it. -/
theorem Answer.filter_labelled? {label : String} (hlabel : label ≠ "") (a : Answer) :
    (a.labelled?.toList.filter (·.label == label)).map Labelled.pair = under label [a] := by
  obtain ⟨pair, stop | _ | given⟩ := a
  · rfl
  · rfl
  · rcases eq_or_ne given label with rfl | hgiven
    · simp [labelled?, Labelled.of?, under, hlabel]
    · by_cases hempty : given = "" <;>
        simp [labelled?, Labelled.of?, under, hempty, hgiven, Ne.symm hlabel]

/-- The label of a pair is not empty. -/
theorem Answer.label_ne {a : Answer} {p : Labelled} (h : a.labelled? = some p) : p.label ≠ "" := by
  obtain ⟨pair, stop | _ | given⟩ := a
  · exact absurd h nofun
  · exact absurd h nofun
  · by_cases hempty : given = ""
    · exact absurd h (by simp [labelled?, Labelled.of?, hempty])
    · obtain rfl : _ = p := by simpa [labelled?, Labelled.of?, hempty] using h
      exact hempty

/-- The labelled pairs of several answers, in order. -/
def labelledPairs (said : List Answer) : List Labelled := said.flatMap (·.labelled?.toList)

/-- Labelled pairs with a label are the pairs that were given it. -/
theorem filter_labelledPairs {label : String} (hlabel : label ≠ "") (said : List Answer) :
    ((labelledPairs said).filter (·.label == label)).map Labelled.pair = under label said := by
  induction said with
  | nil => rfl
  | cons a said ih =>
    rw [labelledPairs, List.flatMap_cons, List.filter_append, List.map_append,
      a.filter_labelled? hlabel, ← labelledPairs, ih, under, under, under, ← List.map_append,
      ← List.filter_append]
    rfl

theorem label_ne_of_mem {said : List Answer} {p : Labelled} (h : p ∈ labelledPairs said) :
    p.label ≠ "" := by
  obtain ⟨a, -, hp⟩ := List.mem_flatMap.1 h
  exact a.label_ne (Option.mem_toList.1 hp)

namespace Collector

variable {adviser : Adviser} {c : Collector} {sql : String} {pairs : List Pair}

/-! ## One statement -/

/-- Asking changes nothing but what was asked. -/
theorem kept_askAll : (c.askAll adviser pairs).1.kept = c.kept := by
  induction pairs generalizing c with
  | nil => rfl
  | cons pair pairs ih =>
    rw [askAll, ask]
    cases adviser c.asked pair.column pair.value with
    | error stop => rfl
    | ok label => exact ih

/-- If the detector answers for all pairs, they are labelled as it says. -/
theorem askAll_of_answered (h : Answered (answers adviser c.asked pairs)) :
    (c.askAll adviser pairs).2 = .ok (labelledPairs (answers adviser c.asked pairs)) := by
  induction pairs generalizing c with
  | nil => rfl
  | cons pair pairs ih =>
    obtain ⟨hfirst, hothers⟩ := List.forall_mem_cons.1 h
    have hrest := @ih { c with asked := pair :: c.asked } hothers
    cases hanswer : adviser c.asked pair.column pair.value with
    | error stop => exact absurd hfirst (by simp [hanswer, Except.isOk, Except.toBool])
    | ok label =>
      simp only [askAll, ask, answers, hanswer, hrest]
      rfl

/-- If the detector does not answer for all pairs, there is an error. -/
theorem askAll_of_not_answered (h : ¬ Answered (answers adviser c.asked pairs)) :
    ∃ stop, (c.askAll adviser pairs).2 = .error stop := by
  induction pairs generalizing c with
  | nil => exact absurd h (by simp [Answered, answers])
  | cons pair pairs ih =>
    cases hanswer : adviser c.asked pair.column pair.value with
    | error stop =>
      simp only [askAll, ask, hanswer]
      exact ⟨stop, rfl⟩
    | ok label =>
      have hothers : ¬ Answered (answers adviser (pair :: c.asked) pairs) := fun hothers =>
        h (List.forall_mem_cons.2 ⟨by rw [hanswer]; rfl, hothers⟩)
      obtain ⟨stop, hstop⟩ := @ih { c with asked := pair :: c.asked } hothers
      simp only [askAll, ask, hanswer, hstop]
      exact ⟨stop, rfl⟩

/-- The pairs of a statement can be told, and the detector answers for each. -/
def Takes (adviser : Adviser) (c : Collector) (sql : String) : Prop :=
  ∃ pairs, pairsOfStatement sql = .ok pairs ∧ Answered (answers adviser c.asked pairs)

/-- What is said of the pairs of a statement. -/
def said (adviser : Adviser) (c : Collector) (sql : String) : List Answer :=
  answers adviser c.asked ((pairsOfStatement sql).toOption.getD [])

/-- Labelled pairs are kept behind a lock that is not poisoned. -/
theorem kept_keep (hopen : c.kept.poisoned = false) (labelled : List Labelled) :
    (c.keep labelled).kept = ⟨labelled.foldl LabelTable.add c.kept.value, false⟩ := by
  simp [keep, Guarded.hold, hopen]

/-- The empty text is processed as any text without pairs. -/
theorem process_eq : c.process adviser sql = match pairsOfStatement sql with
    | .error cause => (c, .error (.refused (.extract cause)))
    | .ok pairs => match c.askAll adviser pairs with
      | (c, .error stop) => (c, .error stop)
      | (c, .ok labelled) => (if labelled.isEmpty then c else c.keep labelled, .ok ()) := by
  rw [process, pairsOfStatement]
  split
  · rfl
  · cases extract Statement.readAll sql <;> rfl

/-- A statement that is taken adds its labelled pairs. -/
theorem process_of_takes (hopen : c.kept.poisoned = false) (h : c.Takes adviser sql) :
    (c.process adviser sql).2 = .ok () ∧ (c.process adviser sql).1.kept =
      ⟨(labelledPairs (c.said adviser sql)).foldl LabelTable.add c.kept.value, false⟩ := by
  obtain ⟨pairs, hpairs, hanswered⟩ := h
  have hsaid : c.said adviser sql = answers adviser c.asked pairs := by
    rw [said, hpairs]
    rfl
  have hkept := @kept_askAll adviser c pairs
  have hlabelled := askAll_of_answered hanswered
  rw [process_eq, hpairs, hsaid]
  dsimp only
  generalize c.askAll adviser pairs = all at hkept hlabelled ⊢
  obtain ⟨c', answer⟩ := all
  obtain rfl : answer = _ := hlabelled
  refine ⟨rfl, ?_⟩
  replace hkept : c'.kept = c.kept := hkept
  rw [← hkept] at hopen ⊢
  dsimp only
  split
  · rename_i hnone
    rw [List.isEmpty_iff.1 hnone, ← hopen]
    rfl
  · exact kept_keep hopen _

/-- A statement that is not taken fails, and adds nothing. -/
theorem process_of_not_takes (h : ¬ c.Takes adviser sql) :
    (c.process adviser sql).2 ≠ .ok () ∧ (c.process adviser sql).1.kept = c.kept := by
  rw [process_eq]
  cases hpairs : pairsOfStatement sql with
  | error cause => exact ⟨nofun, rfl⟩
  | ok pairs =>
    obtain ⟨stop, hstop⟩ := askAll_of_not_answered fun hanswered => h ⟨pairs, hpairs, hanswered⟩
    have hkept := @kept_askAll adviser c pairs
    dsimp only
    generalize c.askAll adviser pairs = all at hkept hstop ⊢
    obtain ⟨c', answer⟩ := all
    obtain rfl : answer = _ := hstop
    exact ⟨nofun, hkept⟩

/-! ## Several statements -/

/-- What is said of the pairs of the statements that are taken, in order. -/
def saidOfTaken (adviser : Adviser) : Collector → List String → List Answer
  | _, [] => []
  | c, sql :: statements =>
    (if (c.process adviser sql).2 = .ok () then c.said adviser sql else [])
      ++ saidOfTaken adviser (c.process adviser sql).1 statements

/-- What becomes of each of some statements. -/
def outcomes (adviser : Adviser) : Collector → List String → List (Except Stop Unit)
  | _, [] => []
  | c, sql :: statements =>
    (c.process adviser sql).2 :: outcomes adviser (c.process adviser sql).1 statements

/-- The lock is never poisoned, and under it are the labelled pairs of the statements taken. -/
theorem kept_processAll (statements : List String) (hopen : c.kept.poisoned = false) :
    (c.processAll adviser statements).kept =
      ⟨(labelledPairs (saidOfTaken adviser c statements)).foldl LabelTable.add c.kept.value,
        false⟩ := by
  induction statements generalizing c with
  | nil => rw [← hopen]; rfl
  | cons sql statements ih =>
    rw [processAll, List.foldl_cons, ← processAll, saidOfTaken, labelledPairs, List.flatMap_append,
      List.foldl_append, ← labelledPairs, ← labelledPairs]
    by_cases htakes : c.Takes adviser sql
    · obtain ⟨hok, hkept⟩ := process_of_takes hopen htakes
      rw [ih (by rw [hkept]), hkept, if_pos hok]
    · obtain ⟨hfails, hkept⟩ := process_of_not_takes htakes
      rw [ih (by rw [hkept, hopen]), hkept, if_neg hfails]
      rfl

/-- A detector that does not remember answers alike, whatever was asked before. -/
theorem askAll_snd_congr {c' : Collector} (hadviser : ∀ asked, adviser asked = adviser []) :
    (c.askAll adviser pairs).2 = (c'.askAll adviser pairs).2 := by
  induction pairs generalizing c c' with
  | nil => rfl
  | cons pair pairs ih =>
    simp only [askAll, ask, hadviser c.asked, hadviser c'.asked]
    cases adviser [] pair.column pair.value with
    | error stop => rfl
    | ok label =>
      dsimp only
      rw [ih]

/-- If the detector does not remember, a statement fares alike after the same was kept. -/
theorem process_congr {c' : Collector} (hadviser : ∀ asked, adviser asked = adviser [])
    (hkept : c.kept = c'.kept) (sql : String) :
    (c.process adviser sql).2 = (c'.process adviser sql).2 ∧
      (c.process adviser sql).1.kept = (c'.process adviser sql).1.kept := by
  rw [process_eq, process_eq]
  cases pairsOfStatement sql with
  | error cause => exact ⟨rfl, hkept⟩
  | ok pairs =>
    have hanswer := @askAll_snd_congr adviser c pairs c' hadviser
    have hfirst := @kept_askAll adviser c pairs
    have hsecond := @kept_askAll adviser c' pairs
    dsimp only
    generalize c.askAll adviser pairs = all at hanswer hfirst ⊢
    generalize c'.askAll adviser pairs = all' at hanswer hsecond ⊢
    obtain ⟨d, answer⟩ := all
    obtain ⟨d', answer'⟩ := all'
    obtain rfl : answer = answer' := hanswer
    have hsame : d.kept = d'.kept := hfirst.trans (hkept.trans hsecond.symm)
    cases answer with
    | error stop => exact ⟨rfl, hsame⟩
    | ok labelled =>
      refine ⟨rfl, ?_⟩
      dsimp only
      split
      · exact hsame
      · rw [keep, keep, hsame]

/-- If the detector does not remember, later statements fare alike after the same was kept. -/
theorem outcomes_congr {c' : Collector} (hadviser : ∀ asked, adviser asked = adviser [])
    (hkept : c.kept = c'.kept) (statements : List String) :
    outcomes adviser c statements = outcomes adviser c' statements ∧
      (c.processAll adviser statements).kept = (c'.processAll adviser statements).kept := by
  induction statements generalizing c c' with
  | nil => exact ⟨rfl, hkept⟩
  | cons sql statements ih =>
    obtain ⟨hanswer, hnext⟩ := process_congr hadviser hkept sql
    obtain ⟨houtcomes, hall⟩ := ih hnext
    exact ⟨congrArg₂ List.cons hanswer houtcomes, hall⟩

/-- The labels that some pairs were given are in the table, each with these pairs in order. -/
theorem getElem?_labels_processAll (statements : List String) (label : String)
    (pairs : List Pair) : (fresh.processAll adviser statements).labels[label]? = some pairs ↔
      label ≠ "" ∧ pairs ≠ [] ∧ pairs = under label (saidOfTaken adviser fresh statements) := by
  have hkept := @kept_processAll adviser fresh statements rfl
  rw [labels, hkept, Guarded.read]
  generalize saidOfTaken adviser fresh statements = said
  rw [if_neg Bool.false_ne_true, show fresh.kept.value = ∅ from rfl,
    LabelTable.getElem?_foldl_add]
  by_cases hlabel : label = ""
  · have hnone : ¬ (labelledPairs said).any (·.label == label) := by
      rw [List.any_eq_true]
      rintro ⟨p, hp, hsame⟩
      exact label_ne_of_mem hp ((beq_iff_eq.1 hsame).trans hlabel)
    rw [if_neg hnone]
    simp [hlabel]
  · rw [← filter_labelledPairs hlabel]
    have hsome : (labelledPairs said).any (·.label == label) ↔
        ((labelledPairs said).filter (·.label == label)).map Labelled.pair ≠ [] := by
      rw [Ne, List.map_eq_nil_iff, List.filter_eq_nil_iff, List.any_eq_true]
      simp
    by_cases hany : (labelledPairs said).any (·.label == label)
    · rw [if_pos hany, Option.some.injEq, eq_comm]
      constructor
      · rintro rfl
        exact ⟨hlabel, hsome.1 hany, rfl⟩
      · exact fun h => h.2.2
    · rw [if_neg hany]
      constructor
      · exact nofun
      · rintro ⟨-, hpairs, rfl⟩
        exact absurd (hsome.2 hpairs) hany

/-- The pairs under a label. -/
def pairsUnder (c : Collector) (label : String) : List Pair := c.labels[label]?.getD []

theorem pairsUnder_processAll (statements : List String) (label : String) :
    (fresh.processAll adviser statements).pairsUnder label =
      if label = "" then [] else under label (saidOfTaken adviser fresh statements) := by
  have hlabels := @getElem?_labels_processAll adviser statements label
  rw [pairsUnder]
  cases hpairs : (fresh.processAll adviser statements).labels[label]? with
  | some pairs =>
    obtain ⟨hlabel, -, rfl⟩ := (hlabels pairs).1 hpairs
    rw [if_neg hlabel]
    rfl
  | none =>
    split
    · rfl
    · rename_i hlabel
      by_contra hne
      have hsome := (hlabels _).2 ⟨hlabel, Ne.symm hne, rfl⟩
      exact absurd (hpairs.symm.trans hsome) nofun

theorem saidOfTaken_concat (statements : List String) (sql : String) :
    saidOfTaken adviser c (statements ++ [sql]) = saidOfTaken adviser c statements ++
      saidOfTaken adviser (c.processAll adviser statements) [sql] := by
  induction statements generalizing c with
  | nil => rfl
  | cons first statements ih =>
    rw [List.cons_append, saidOfTaken, saidOfTaken, ih, List.append_assoc]
    rfl

/-- A statement counts as a whole or not at all. It is taken if and only if its pairs can be told
and the detector answers for each of them. If not, nothing changes but what the detector was asked,
and later statements fare as if it had not come, unless the detector remembers. If it is taken, each
label but the empty one has the pairs that were given it behind those it had. The table has the
labels that some pairs were given, each with the pairs of the statements taken. -/
theorem process_all_or_nothing (adviser : Adviser) (before : List String) (sql : String) :
    let c := fresh.processAll adviser before
    let next := (c.process adviser sql).1
    let answer := (c.process adviser sql).2
    (answer = .ok () ↔ c.Takes adviser sql) ∧
    (answer ≠ .ok () → next.labels = c.labels ∧ next = { c with asked := next.asked } ∧
      ((∀ asked, adviser asked = adviser []) → ∀ later,
        outcomes adviser next later = outcomes adviser c later ∧
        (next.processAll adviser later).labels = (c.processAll adviser later).labels)) ∧
    (answer = .ok () → ∀ label, next.pairsUnder label =
      c.pairsUnder label ++ if label = "" then [] else under label (c.said adviser sql)) ∧
    ∀ label pairs, c.labels[label]? = some pairs ↔
      label ≠ "" ∧ pairs ≠ [] ∧ pairs = under label (saidOfTaken adviser fresh before) := by
  intro c next answer
  have hopen : c.kept.poisoned = false := by
    rw [show c = _ from rfl, kept_processAll before rfl]
  refine ⟨⟨fun hok => ?_, fun htakes => (process_of_takes hopen htakes).1⟩, fun hfails => ?_,
    fun hok label => ?_, getElem?_labels_processAll before⟩
  · by_contra htakes
    exact (process_of_not_takes htakes).1 hok
  · have hkept : next.kept = c.kept :=
      (process_of_not_takes fun htakes => hfails (process_of_takes hopen htakes).1).2
    refine ⟨by rw [labels, labels, hkept], congrArg (Collector.mk next.asked) hkept,
      fun hadviser later => ?_⟩
    obtain ⟨houtcomes, hall⟩ := outcomes_congr hadviser hkept later
    exact ⟨houtcomes, by rw [labels, labels, hall]⟩
  · have hnext : next = fresh.processAll adviser (before ++ [sql]) := by
      rw [processAll, List.foldl_concat]
      rfl
    have hsaid : saidOfTaken adviser c [sql] = c.said adviser sql := by
      rw [saidOfTaken, if_pos hok, saidOfTaken, List.append_nil]
    rw [hnext, pairsUnder_processAll, pairsUnder_processAll, saidOfTaken_concat, hsaid]
    split
    · rfl
    · rw [under, under, under, List.filter_append, List.map_append]

/-- A detector that breaks off on the second pair of a statement, after it gave the first one a
label, leaves the pair of the statement before. -/
theorem process_all_or_nothing_panicked :
    let adviser : Adviser := fun _ column _ =>
      if column = "b" then .error (.panicked .other) else .ok (some "Label")
    let before := ["SELECT 1 FROM t WHERE a = 1"]
    let sql := "SELECT 1 FROM t WHERE a = 2 AND b = 3"
    ((fresh.processAll adviser before).process adviser sql).2 = .error (.panicked .other) ∧
      ((fresh.processAll adviser before).process adviser sql).1.labels["Label"]? =
        some [⟨"a", "1"⟩] := by
  intro adviser before sql
  have hall := process_all_or_nothing adviser before sql
  have hbroken : ((fresh.processAll adviser before).process adviser sql).2 =
      .error (.panicked .other) := by
    decide +kernel
  have hunder : under "Label" (saidOfTaken adviser fresh before) = [⟨"a", "1"⟩] := by
    decide +kernel
  refine ⟨hbroken, ?_⟩
  rw [(hall.2.1 fun hok => absurd (hbroken.symm.trans hok) nofun).1]
  exact (hall.2.2.2 "Label" [⟨"a", "1"⟩]).2 ⟨by decide, by decide, hunder.symm⟩

/-! ## Detectors that do not remember -/

/-- A detector that does not remember labels the pairs that it answers for. -/
theorem askAll_snd_eq_labelled (detector : Detector) :
    (c.askAll (fun _ => detector) pairs).2 = labelled detector pairs := by
  induction pairs generalizing c with
  | nil => rfl
  | cons pair pairs ih =>
    rw [labelled, askAll, ask]
    cases detector pair.column pair.value with
    | error stop => rfl
    | ok label =>
      have hothers := @ih { c with asked := pair :: c.asked }
      dsimp only
      rw [hothers]
      cases labelled detector pairs with
      | error stop => rfl
      | ok others =>
        rcases label with _ | label
        · rfl
        · by_cases hempty : label = "" <;>
            simp [Labelled.of?, hempty, Except.map, bind, Except.bind, pure, Except.pure]

/-- The analyzer of personal data takes a record as a collector takes the statement in it. -/
theorem feed_personalData_eq (detector : Detector) (hopen : c.kept.poisoned = false) {r : Record}
    (hsql : statementOfMessage? r.description = some sql) :
    (Analyzer.personalData detector).feed c.labels r =
      ((c.process (fun _ => detector) sql).1.labels, (c.process (fun _ => detector) sql).2) := by
  have hlabelled : labelledOfStatement detector sql = match pairsOfStatement sql with
      | .error cause => .error (.refused (.extract cause))
      | .ok pairs => labelled detector pairs := by
    rw [labelledOfStatement, pairsOfStatement]
    split
    · rfl
    · cases extract Statement.readAll sql <;> rfl
  simp only [Analyzer.feed, Analyzer.labelledOfRecord, hsql]
  rw [process_eq, hlabelled]
  cases pairsOfStatement sql with
  | error cause => rfl
  | ok pairs =>
    have hanswer := @askAll_snd_eq_labelled c pairs detector
    have hkept := @kept_askAll (fun _ => detector) c pairs
    dsimp only
    rw [← hanswer]
    generalize c.askAll (fun _ => detector) pairs = all at hkept ⊢
    obtain ⟨c', stop | labelled⟩ := all
    · exact congrArg₂ Prod.mk (by rw [labels, labels, hkept]) rfl
    · replace hkept : c'.kept = c.kept := hkept
      have hvalue : c.labels = c'.kept.value := by rw [labels, Guarded.read, hopen, hkept]; rfl
      have hkeep := @kept_keep c' (by rw [hkept, hopen]) labelled
      dsimp only
      rw [hvalue]
      split
      · rename_i hnone
        rw [List.isEmpty_iff.1 hnone, ← hvalue, labels, labels, hkept]
        rfl
      · rw [labels, hkeep]
        rfl

end Collector

end LogAudit.Audit
