import LogAudit.Proofs.Audit.Collected
import LogAudit.Proofs.Text.Occurrences

/-!
# Passwords that messages show

A message may show several passwords. The one that stands first decides: it is what a leak tells,
and if it is hashed, then no other one is looked at (`leak?_eq_some_iff`).
-/

namespace LogAudit.Audit

open LogAudit.Text LogAudit.Line

/-- A text begins with a password: the keyword in letters of either case, blanks, and a text in
quotes that is not empty and has no quote. -/
def ShowsPassword (s password : List Char) : Prop :=
  ∃ keyword gap rest,
    List.Forall₂ (fun letter c => Pattern.sameLetter letter c = true) "PASSWORD".toList keyword ∧
      Pattern.IsGap gap ∧ (password ≠ [] ∧ '\x27' ∉ password) ∧
        s = keyword ++ (gap ++ '\x27' :: (password ++ '\x27' :: rest))

/-- A password begins with the name of a hashing method, in letters of either case, and goes on. -/
def InHashedForm (password : List Char) : Prop :=
  ∃ name ∈ hashNames, ∃ front back, password = front ++ back ∧
    front.map Char.toLower = name.toList ∧ back ≠ []

theorem isHashed_iff {password : String} :
    isHashed password = true ↔ InHashedForm password.toList := by
  unfold isHashed InHashedForm
  rw [List.any_eq_true]
  refine exists_congr fun name => and_congr_right fun _ => ?_
  rw [Bool.and_eq_true, List.isPrefixOf_iff_prefix, decide_eq_true_eq]
  constructor
  · rintro ⟨⟨t, ht⟩, hlt⟩
    obtain ⟨front, back, hsplit, hfront, rfl⟩ := List.map_eq_append_iff.1 ht.symm
    refine ⟨front, back, hsplit, hfront, ?_⟩
    rintro rfl
    have hlength := congrArg List.length ht
    simp only [List.map_nil, List.append_nil, String.length_toList] at hlength
    omega
  · rintro ⟨front, back, hsplit, hfront, hback⟩
    rw [hsplit, List.map_append, hfront]
    refine ⟨List.prefix_append _ _, ?_⟩
    rw [List.length_append, List.length_map, String.length_toList]
    exact Nat.lt_add_of_pos_right (List.length_pos_of_ne_nil hback)

/-! ## The pattern of a password -/

theorem reads_keyword_iff {s rest : List Char} :
    (phrase "PASSWORD ").Reads s rest ↔ ∃ keyword gap,
      List.Forall₂ (fun letter c => Pattern.sameLetter letter c = true) "PASSWORD".toList keyword ∧
        Pattern.IsGap gap ∧ s = keyword ++ (gap ++ rest) := by
  have hphrase : phrase "PASSWORD " = .sequence (("PASSWORD".toList.map fun letter =>
      .one (Pattern.sameLetter letter)) ++ [.someBlanks]) := rfl
  rw [hphrase, Pattern.reads_sequence_append (by simp)]
  constructor
  · rintro ⟨middle, hkeyword, hgap⟩
    obtain ⟨keyword, hletters, rfl⟩ := Pattern.reads_letters_iff.1 hkeyword
    obtain ⟨gap, hblank, rfl⟩ := Pattern.reads_someBlanks_iff.1 hgap
    exact ⟨keyword, gap, hletters, hblank, rfl⟩
  · rintro ⟨keyword, gap, hletters, hblank, rfl⟩
    exact ⟨gap ++ rest, Pattern.reads_letters_iff.2 ⟨keyword, hletters, rfl⟩,
      Pattern.reads_someBlanks_iff.2 ⟨gap, hblank, rfl⟩⟩

theorem reads_unquoted_iff {text : List Char} :
    (Pattern.atLeastOne (· != '\x27')).Reads text [] ↔ text ≠ [] ∧ '\x27' ∉ text := by
  rw [Pattern.reads_atLeastOne_iff]
  constructor
  · rintro ⟨w, hw, hne, hquote⟩
    rw [List.append_nil] at hw
    subst hw
    exact ⟨hne, fun hc => absurd (hquote _ hc) (by simp)⟩
  · rintro ⟨hne, hquote⟩
    exact ⟨text, (List.append_nil text).symm, hne,
      fun c hc => bne_iff_ne.2 fun he => hquote (he ▸ hc)⟩

/-- At most one password stands at each place. -/
theorem ShowsPassword.unique {s text other : List Char} (h : ShowsPassword s text)
    (h' : ShowsPassword s other) : text = other := by
  obtain ⟨keyword, gap, rest, hletters, hgap, htext, rfl⟩ := h
  obtain ⟨keyword', gap', rest', hletters', hgap', hother, hsplit⟩ := h'
  have hinside : ∀ {text : List Char}, '\x27' ∉ text → ∀ c ∈ text, (c != '\x27') = true :=
    fun hquote c hc => bne_iff_ne.2 fun he => hquote (he ▸ hc)
  have hlength := hletters.length_eq.symm.trans hletters'.length_eq
  obtain ⟨-, hsplit⟩ := List.append_inj hsplit hlength
  have hblank : isBlank '\x27' = false := by decide
  obtain ⟨-, hsplit⟩ := append_inj_of_class hgap.2 hgap'.2 (by simpa) (by simpa) hsplit
  exact (append_inj_of_class (hinside htext.2) (hinside hother.2) (by simp) (by simp)
    (List.cons.inj hsplit).2).1

/-- The pattern looks for passwords. -/
theorem passwordPattern_finds : passwordPattern.Finds 1 ShowsPassword := by
  refine Pattern.finds_sequence [phrase "PASSWORD ", .char '\x27'] [.char '\x27'] (by decide) rfl
    (by decide) (by simp) (fun s text => ?_) fun s text other => ShowsPassword.unique
  constructor
  · rintro ⟨keyword, gap, rest, hletters, hgap, htext, rfl⟩
    exact ⟨_, rest, ⟨_, reads_keyword_iff.2 ⟨keyword, gap, hletters, hgap, rfl⟩,
      Pattern.reads_char_iff.2 rfl⟩, reads_unquoted_iff.2 htext, Pattern.reads_char_iff.2 rfl⟩
  · rintro ⟨_, rest, ⟨_, hkeyword, hopen⟩, htext, hclose⟩
    obtain ⟨keyword, gap, hletters, hgap, rfl⟩ := reads_keyword_iff.1 hkeyword
    obtain rfl := Pattern.reads_char_iff.1 hopen
    obtain rfl := Pattern.reads_char_iff.1 hclose
    exact ⟨keyword, gap, rest, hletters, hgap, reads_unquoted_iff.1 htext, rfl⟩

/-! ## Leaks -/

theorem leak?_eq (message : String) :
    leak? message = ((passwordPattern.search message.toList).bind (·.text? 1)).bind fun password =>
      if isHashed (String.ofList password) then none
      else some ⟨message, String.ofList password⟩ := by
  rw [Option.bind_assoc]
  rfl

/-- A leak tells the message and its first password, which is not hashed. -/
theorem leak?_eq_some_iff {message : String} {leak : Leak} :
    leak? message = some leak ↔ leak.query = message ∧
      FirstIn ShowsPassword message.toList leak.password.toList ∧
        ¬ InHashedForm leak.password.toList := by
  rw [leak?_eq, Option.bind_eq_some_iff]
  simp only [passwordPattern_finds.search_eq_some_iff]
  constructor
  · rintro ⟨password, hfirst, hleak⟩
    split at hleak
    · exact absurd hleak (by simp)
    · next hplain =>
      obtain rfl := Option.some.inj hleak
      rw [isHashed_iff] at hplain
      exact ⟨rfl, by rwa [String.toList_ofList], hplain⟩
  · rintro ⟨rfl, hfirst, hplain⟩
    refine ⟨_, hfirst, ?_⟩
    rw [String.ofList_toList, if_neg (by rwa [isHashed_iff])]

/-- There is no leak where no password is shown that is not hashed. -/
theorem leak?_eq_none {message : String}
    (h : ∀ password, OccursIn ShowsPassword message.toList password → InHashedForm password) :
    leak? message = none := by
  rw [Option.eq_none_iff_forall_ne_some]
  intro leak hleak
  obtain ⟨-, hfirst, hplain⟩ := leak?_eq_some_iff.1 hleak
  exact hplain (h _ hfirst.occursIn)

/-- A message with passwords leaks exactly if the first of them is not hashed. -/
theorem isSome_leak?_iff {message : String} {first : List Char}
    (h : FirstIn ShowsPassword message.toList first) :
    (leak? message).isSome = true ↔ ¬ InHashedForm first := by
  rw [Option.isSome_iff_exists]
  constructor
  · rintro ⟨leak, hleak⟩
    obtain ⟨-, hfirst, hplain⟩ := leak?_eq_some_iff.1 hleak
    rwa [h.unique passwordPattern_finds.unique hfirst]
  · intro hplain
    exact ⟨⟨message, String.ofList first⟩,
      leak?_eq_some_iff.2 ⟨rfl, by rwa [String.toList_ofList], by rwa [String.toList_ofList]⟩⟩

/-- A message leaks exactly if it shows some password that is not hashed, unless its first one is
hashed and another one is not. -/
theorem isSome_leak?_iff_exists_iff {message : String} :
    ((leak? message).isSome = true ↔
        ∃ password, OccursIn ShowsPassword message.toList password ∧ ¬ InHashedForm password) ↔
      ∀ first, FirstIn ShowsPassword message.toList first → InHashedForm first →
        ∀ password, OccursIn ShowsPassword message.toList password → InHashedForm password := by
  constructor
  · intro hmeets first hfirst hhashed password hoccurs
    by_contra hplain
    exact (isSome_leak?_iff hfirst).1 (hmeets.2 ⟨password, hoccurs, hplain⟩) hhashed
  · intro hall
    constructor
    · intro hsome
      obtain ⟨leak, hleak⟩ := Option.isSome_iff_exists.1 hsome
      obtain ⟨-, hfirst, hplain⟩ := leak?_eq_some_iff.1 hleak
      exact ⟨_, hfirst.occursIn, hplain⟩
    · rintro ⟨password, hoccurs, hplain⟩
      obtain ⟨first, hfirst⟩ := hoccurs.exists_firstIn
      exact (isSome_leak?_iff hfirst).2 fun hhashed =>
        hplain (hall first hfirst hhashed password hoccurs)

/-- The leaks after some records are those of their messages, in order. A message has the leak of
its first password, unless that is hashed; so it has none if no password is shown or all are hashed.
No password that is not hashed goes unreported exactly where none stands behind a first one that is
hashed. -/
theorem leaks_of_firstShown (records : List Record) :
    Analyzer.passwordLeak.resultOf records =
      .passwordLeak (records.flatMap fun r => (leak? r.description).toList) ∧
    ∀ message : String,
      (∀ leak, leak? message = some leak ↔ leak.query = message ∧
        FirstIn ShowsPassword message.toList leak.password.toList ∧
          ¬ InHashedForm leak.password.toList) ∧
      ((∀ password, OccursIn ShowsPassword message.toList password → InHashedForm password) →
        leak? message = none) ∧
      (((leak? message).isSome = true ↔
          ∃ password, OccursIn ShowsPassword message.toList password ∧ ¬ InHashedForm password) ↔
        ∀ first, FirstIn ShowsPassword message.toList first → InHashedForm first →
          ∀ password, OccursIn ShowsPassword message.toList password → InHashedForm password) :=
  ⟨Analyzer.resultOf_passwordLeak records, fun _ =>
    ⟨fun _ => leak?_eq_some_iff, leak?_eq_none, isSome_leak?_iff_exists_iff⟩⟩

/-- A password that stands in front of a hashed one. -/
def plainFirst : String := "alter role b password 'hunter2'; alter role a password 'md5abc'"

/-- The first password counts, and the one after it is not looked at. -/
theorem leaks_of_firstShown_plainFirst :
    leak? plainFirst = some ⟨plainFirst, "hunter2"⟩ ∧
      FirstIn ShowsPassword plainFirst.toList "hunter2".toList := by
  have hleak : leak? plainFirst = some ⟨plainFirst, "hunter2"⟩ := by decide +kernel
  obtain ⟨-, hfirst, -⟩ := (((leaks_of_firstShown []).2 plainFirst).1 _).1 hleak
  exact ⟨hleak, hfirst⟩

/-- A password that stands behind a hashed one. -/
def hashedFirst : String :=
  "statement: ALTER ROLE a PASSWORD 'md5abc'; ALTER ROLE b PASSWORD 'hunter2'"

/-- A password behind a hashed one is missed. -/
theorem hashedFirst_missed :
    OccursIn ShowsPassword hashedFirst.toList "hunter2".toList ∧
    ¬ InHashedForm "hunter2".toList ∧
    ((⟨[.token .user, .literal ' '], by decide⟩ : Template).record
        ("bob LOG:  " ++ hashedFirst)).toOption.map
      (fun r => (r.description, Analyzer.passwordLeak.resultOf [r])) =
      some (hashedFirst, .passwordLeak []) := by
  refine ⟨⟨"statement: ALTER ROLE a PASSWORD 'md5abc'; ALTER ROLE b ".toList,
    "PASSWORD 'hunter2'".toList, by decide +kernel, "PASSWORD".toList, [' '], [], ?_,
      ⟨by decide, List.forall_mem_singleton.2 (by decide)⟩, by decide, by decide +kernel⟩, ?_,
    by decide +kernel⟩
  · exact List.forall₂_same.2 (List.all_eq_true.1 (by decide +kernel))
  · rw [← isHashed_iff]
    decide +kernel

end LogAudit.Audit
