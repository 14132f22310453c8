import LogAudit.Proofs.Audit.Collected
import LogAudit.Proofs.Line.Layout
import LogAudit.Proofs.Text.Occurrences
import LogAudit.Proofs.Text.Order

/-!
# Users that show up

A record shows the user of its prefix, or else the user of the first authorized connection that its
message tells about (`user?_eq_some_iff`). The known users are divided into those that some record
shows and the inactive ones (`Analyzer.inactive_of_shown`).
-/

namespace LogAudit.Audit

open LogAudit.Text LogAudit.Line

/-- A word without blanks, which may be empty. -/
def IsUnbroken (word : List Char) : Prop := ∀ c ∈ word, Pattern.isInk c = true

/-- A text begins with the message about an authorized connection of a user, in which the name of
the application comes after the database. -/
def Authorizes (s user : List Char) : Prop :=
  ∃ gap gap' database gap'' rest, Pattern.IsGap gap ∧ IsUnbroken user ∧ Pattern.IsGap gap' ∧
    IsUnbroken database ∧ Pattern.IsGap gap'' ∧
      s = "connection authorized:".toList ++ (gap ++ ("user=".toList ++ (user ++ (gap' ++
        ("database=".toList ++ (database ++ (gap'' ++ ("application_name=".toList ++ rest))))))))

/-- A record shows a user. -/
def ShowsUser (r : Record) (user : String) : Prop :=
  r.user = .ok user ∨
    (∀ own, r.user ≠ .ok own) ∧ FirstIn Authorizes r.description.toList user.toList

/-- A message tells about one connection of a user to a database, with something behind it. -/
structure TellsConnection (message front user database behind : List Char) : Prop where
  message_eq : message = front ++ ("connection authorized:".toList ++ (" ".toList ++
    ("user=".toList ++ (user ++ (" ".toList ++ ("database=".toList ++ (database ++ behind)))))))
  user : IsUnbroken user
  database : IsUnbroken database
  behind : ∀ c ∈ behind.head?, isBlank c = true
  once : ∀ before rest, message = before ++ ("connection authorized:".toList ++ rest) →
    before = front

/-! ## The pattern of an authorized connection -/

/-- A word ends where the text goes on with a blank. -/
theorem unbroken_append_inj {word word' s s' : List Char} (hword : IsUnbroken word)
    (hword' : IsUnbroken word') (hs : ∀ c ∈ s.head?, isBlank c = true)
    (hs' : ∀ c ∈ s'.head?, isBlank c = true) (h : word ++ s = word' ++ s') :
    word = word' ∧ s = s' := by
  have hink : ∀ {s : List Char}, (∀ c ∈ s.head?, isBlank c = true) →
      ∀ c ∈ s.head?, Pattern.isInk c = false := fun hs c hc => by simp [Pattern.isInk, hs c hc]
  exact append_inj_of_class hword hword' (hink hs) (hink hs') h

/-- A gap ends where the text goes on with a name. -/
theorem gap_append_inj {gap gap' name s s' : List Char} (hgap : Pattern.IsGap gap)
    (hgap' : Pattern.IsGap gap') (hname : name.head?.any (!isBlank ·) = true)
    (h : gap ++ (name ++ s) = gap' ++ (name ++ s')) : gap = gap' ∧ s = s' := by
  cases name with
  | nil => exact absurd hname (by simp)
  | cons letter name =>
    have hletter : isBlank letter = false := by simpa using hname
    obtain ⟨hsame, hrest⟩ := append_inj_of_class hgap.2 hgap'.2 (by simpa) (by simpa) h
    exact ⟨hsame, List.append_cancel_left hrest⟩

/-- At most one authorized connection stands at each place. -/
theorem Authorizes.unique {s user other : List Char} (h : Authorizes s user)
    (h' : Authorizes s other) : user = other := by
  obtain ⟨gap, between, _, _, _, hgap, huser, hbetween, -, -, rfl⟩ := h
  obtain ⟨gap', between', _, _, _, hgap', hother, hbetween', -, -, hsplit⟩ := h'
  obtain ⟨-, hname⟩ := gap_append_inj hgap hgap' (by decide) (List.append_cancel_left hsplit)
  exact (unbroken_append_inj huser hother (hbetween.isBlank_head _) (hbetween'.isBlank_head _)
    hname).1

theorem reads_beforeUser_iff {s rest : List Char} :
    (Pattern.sequence [.text "connection authorized:", .someBlanks, .text "user="]).Reads s rest ↔
      ∃ gap, Pattern.IsGap gap ∧
        s = "connection authorized:".toList ++ (gap ++ ("user=".toList ++ rest)) := by
  simp only [Pattern.sequence, Pattern.Reads, Pattern.reads_text_iff, Pattern.reads_someBlanks_iff]
  constructor
  · rintro ⟨_, rfl, _, ⟨gap, hgap, rfl⟩, rfl⟩
    exact ⟨gap, hgap, rfl⟩
  · rintro ⟨gap, hgap, rfl⟩
    exact ⟨_, rfl, _, ⟨gap, hgap, rfl⟩, rfl⟩

theorem reads_behindUser_iff {s rest : List Char} :
    (Pattern.sequence [.someBlanks, .text "database=", .many Pattern.isInk, .someBlanks,
      .text "application_name="]).Reads s rest ↔
      ∃ gap database gap', Pattern.IsGap gap ∧ IsUnbroken database ∧ Pattern.IsGap gap' ∧
        s = gap ++ ("database=".toList ++ (database ++ (gap' ++
          ("application_name=".toList ++ rest)))) := by
  simp only [Pattern.sequence, Pattern.Reads, Pattern.reads_text_iff, Pattern.reads_someBlanks_iff]
  constructor
  · rintro ⟨_, ⟨gap, hgap, rfl⟩, _, rfl, _, ⟨database, hdatabase, rfl⟩, _, ⟨gap', hgap', rfl⟩, rfl⟩
    exact ⟨gap, database, gap', hgap, hdatabase, hgap', rfl⟩
  · rintro ⟨gap, database, gap', hgap, hdatabase, hgap', rfl⟩
    exact ⟨_, ⟨gap, hgap, rfl⟩, _, rfl, _, ⟨database, hdatabase, rfl⟩, _, ⟨gap', hgap', rfl⟩, rfl⟩

/-- The pattern looks for authorized connections. -/
theorem authorizedPattern_finds : authorizedPattern.Finds 3 Authorizes := by
  refine Pattern.finds_sequence [.text "connection authorized:", .someBlanks, .text "user="]
    [.someBlanks, .text "database=", .many Pattern.isInk, .someBlanks, .text "application_name="]
    (by decide) rfl (by decide) (by simp) (fun s user => ?_) fun s user other => Authorizes.unique
  simp only [reads_beforeUser_iff, reads_behindUser_iff, Pattern.reads_many_iff]
  constructor
  · rintro ⟨gap, gap', database, gap'', rest, hgap, huser, hgap', hdatabase, hgap'', rfl⟩
    exact ⟨_, rest, ⟨gap, hgap, rfl⟩, huser, gap', database, gap'', hgap', hdatabase, hgap'', rfl⟩
  · rintro ⟨_, rest, ⟨gap, hgap, rfl⟩, huser, gap', database, gap'', hgap', hdatabase, hgap'', rfl⟩
    exact ⟨gap, gap', database, gap'', rest, hgap, huser, hgap', hdatabase, hgap'', rfl⟩

/-- The user of a connection is found exactly if the name of the application comes next. -/
theorem TellsConnection.firstIn_iff {message front user database behind : List Char}
    (h : TellsConnection message front user database behind) :
    FirstIn Authorizes message user ↔
      ∃ gap rest, Pattern.IsGap gap ∧ behind = gap ++ ("application_name=".toList ++ rest) := by
  obtain ⟨rfl, huser, hdatabase, hbehind, honce⟩ := h
  have hspace : Pattern.IsGap " ".toList := ⟨by decide, List.all_eq_true.1 (by decide)⟩
  constructor
  · rintro ⟨before, tail, hsplit, ⟨gap, between, database', after, rest, hgap, huser', hbetween,
      hdatabase', hafter, rfl⟩, -⟩
    obtain rfl := honce before _ hsplit
    obtain ⟨-, hname⟩ := gap_append_inj hspace hgap (by decide)
      (List.append_cancel_left (List.append_cancel_left hsplit))
    obtain ⟨-, hfield⟩ := unbroken_append_inj huser huser' (hspace.isBlank_head _)
      (hbetween.isBlank_head _) hname
    obtain ⟨-, hname'⟩ := gap_append_inj hspace hbetween (by decide) hfield
    obtain ⟨-, hend⟩ := unbroken_append_inj hdatabase hdatabase' hbehind (hafter.isBlank_head _)
      hname'
    exact ⟨after, rest, hafter, hend⟩
  · rintro ⟨gap, rest, hgap, rfl⟩
    refine ⟨front, _, rfl, ⟨_, _, database, gap, rest, hspace, huser, hspace, hdatabase, hgap, rfl⟩,
      ?_⟩
    rintro u v other rfl hv ⟨_, _, _, _, _, -, -, -, -, -, hother⟩
    have hfront := honce u _ ((List.append_assoc u v _).trans (congrArg (u ++ ·) hother))
    exact hv (List.append_right_eq_self.1 hfront.symm)

theorem messageField?_eq_some_iff {pattern : Pattern} {Begins : List Char → List Char → Prop}
    (h : pattern.Finds 3 Begins) {message text : String} :
    messageField? pattern message = some text ↔ FirstIn Begins message.toList text.toList := by
  have hfield : messageField? pattern message =
      ((pattern.search message.toList).bind (·.text? 3)).map String.ofList := by
    unfold messageField?
    cases pattern.search message.toList with
    | none => rfl
    | some captures => cases hgroup : captures.text? 3 <;> simp [hgroup]
  rw [hfield, ← h.search_eq_some_iff, Option.map_eq_some_iff]
  constructor
  · rintro ⟨found, hfound, rfl⟩
    rwa [String.toList_ofList]
  · exact fun hfound => ⟨_, hfound, String.ofList_toList⟩

/-! ## Users of records -/

theorem has_user_of_ok {r : Record} {user : String} (h : r.user = .ok user) :
    r.template.has .user = true := by
  rw [Record.user, Record.field] at h
  rw [Template.has, Option.isSome_iff_ne_none]
  intro hnone
  simp [hnone] at h

/-- Where connections are logged, the analyzer sees the users that records show. -/
theorem user?_eq_some_iff {r : Record} {user : String} :
    user? (r.template.has .user) true r = some user ↔ ShowsUser r user := by
  unfold ShowsUser
  cases huser : r.user with
  | ok own => simp [user?, has_user_of_ok huser, huser]
  | error cause =>
    have hmessage : user? (r.template.has .user) true r =
        messageField? authorizedPattern r.description := by simp [user?, huser]
    rw [hmessage, messageField?_eq_some_iff authorizedPattern_finds]
    simp

/-- What a set of texts lists ascends. -/
theorem TextSet.pairwise_toList (texts : TextSet) : texts.toList.Pairwise (· < ·) := by
  have hordered : texts.toList.Pairwise fun a b => compare a b = .lt :=
    Std.TreeSet.ordered_toList
  exact hordered.imp fun hlt => compareOfLessAndEq_eq_lt.1 hlt

namespace Analyzer

section

variable {t : Template} {records : List Record}

/-- The users that are seen are those that some record shows. -/
theorem mem_shownTexts_user (hrecords : ∀ r ∈ records, r.template = t) {user : String} :
    user ∈ shownTexts (fun r => (user? (t.has .user) true r).toList) records ↔
      ∃ r ∈ records, ShowsUser r user := by
  rw [shownTexts, TextSet.mem_foldl_collect]
  simp only [Std.TreeSet.not_mem_emptyc, false_or, Option.mem_toList]
  refine exists_congr fun r => and_congr_right fun hr => ?_
  rw [← hrecords r hr, user?_eq_some_iff]

theorem mem_inactive {known : List String} {seen : TextSet} {user : String} :
    user ∈ inactive known seen ↔ user ∈ known ∧ user ∉ seen := by
  rw [inactive, mem_textSet, List.mem_filter, Bool.not_eq_true', ← Bool.not_eq_true,
    Std.TreeSet.contains_iff_mem]

end

/-- Where connections are logged, the users in the log are, in ascending order, those that some
record shows, and the inactive ones are the known users that no record shows. So no user is both,
and each known user is one of them. A record without a user in its prefix, whose message tells about
one connection, shows its user exactly if the name of the application comes next. -/
theorem inactive_of_shown (t : Template) (settings : Settings) (detector : Detector)
    (hlogged : settings.logConnections = true) (records : List Record)
    (hrecords : ∀ r ∈ records, r.template = t) :
    ∃ a seen inactive, ofCommand t settings detector "inactive_users" = .ok a ∧
      a.resultOf records = .inactiveUsers settings.knownUsers seen inactive ∧
      seen.Pairwise (· < ·) ∧ (∀ user, user ∈ seen ↔ ∃ r ∈ records, ShowsUser r user) ∧
      inactive.Pairwise (· < ·) ∧
      (∀ user, user ∈ inactive ↔
        user ∈ settings.knownUsers ∧ ∀ r ∈ records, ¬ ShowsUser r user) ∧
      seen.Disjoint inactive ∧ (∀ user ∈ settings.knownUsers, user ∈ seen ∨ user ∈ inactive) ∧
      ∀ r ∈ records, (∀ own, r.user ≠ .ok own) → ∀ front (user : String) database behind,
        TellsConnection r.description.toList front user.toList database behind →
        (ShowsUser r user ↔ ∃ gap rest, Pattern.IsGap gap ∧
          behind = gap ++ ("application_name=".toList ++ rest)) := by
  have hsetup : ofCommand t settings detector "inactive_users" =
      .ok (inactiveUsers (t.has .user) true settings.knownUsers) := by
    simp only [ofCommand, hlogged, Bool.or_true, if_true]
  have hseen : ∀ user, user ∈ (shownTexts (fun r => (user? (t.has .user) true r).toList)
      records).toList ↔ ∃ r ∈ records, ShowsUser r user := fun user => by
    rw [Std.TreeSet.mem_toList, mem_shownTexts_user hrecords]
  have hinactive : ∀ user, user ∈ inactive settings.knownUsers
      (shownTexts (fun r => (user? (t.has .user) true r).toList) records) ↔
        user ∈ settings.knownUsers ∧ ∀ r ∈ records, ¬ ShowsUser r user := fun user => by
    rw [mem_inactive, mem_shownTexts_user hrecords]
    simp only [not_exists, not_and]
  refine ⟨_, _, _, hsetup, resultOf_inactiveUsers _ _ _ _, TextSet.pairwise_toList _, hseen,
    pairwise_textSet _, hinactive, fun user hshown hunseen => ?_, fun user hknown => ?_, ?_⟩
  · obtain ⟨r, hr, hshows⟩ := (hseen user).1 hshown
    exact ((hinactive user).1 hunseen).2 r hr hshows
  · by_cases hshown : ∃ r ∈ records, ShowsUser r user
    · exact .inl ((hseen user).2 hshown)
    · exact .inr ((hinactive user).2 ⟨hknown, fun r hr hshows => hshown ⟨r, hr, hshows⟩⟩)
  · intro r hr hown front user database behind htells
    rw [ShowsUser, ← htells.firstIn_iff]
    simp only [hown, false_or, not_false_eq_true, implies_true, true_and, ne_eq]

/-- A template for the process only, so that users are told by messages. -/
def processOnly : Template := ⟨[.token .processId, .literal ' '], by decide⟩

/-- Settings with two known users. -/
def twoUsers : Settings where
  template := "%p "
  logFiles := []
  start := none
  stop := none
  logConnections := true
  commands := ["inactive_users"]
  hbaRules := []
  knownUsers := ["eve", "app", "eve"]
  errorsOut := none

/-- The user of a connection with the name of its application is seen, the other one is inactive. -/
theorem inactive_of_shown_application :
    ∃ r, processOnly.record
        "7 LOG:  connection authorized: user=app database=shop application_name=psql" = .ok r ∧
      ∃ a seen, ofCommand processOnly twoUsers columnNames "inactive_users" = .ok a ∧
        a.resultOf [r] = .inactiveUsers ["eve", "app", "eve"] seen ["eve"] ∧ "app" ∈ seen := by
  have huser : (processOnly.record
      "7 LOG:  connection authorized: user=app database=shop application_name=psql").toOption.map
        (fun r => user? (r.template.has .user) true r) = some (some "app") := by decide +kernel
  cases hrecord : processOnly.record
      "7 LOG:  connection authorized: user=app database=shop application_name=psql" with
  | error cause => simp [hrecord, Except.toOption] at huser
  | ok r =>
    have hshown : user? (r.template.has .user) true r = some "app" := by
      simpa [hrecord, Except.toOption] using huser
    obtain ⟨a, seen, inactive, hsetup, hresult, -, hseen, hordered, hinactive, -⟩ :=
      inactive_of_shown processOnly twoUsers columnNames rfl [r] (by
        simpa using (Template.search_of_read hrecord).1)
    have hshows : ∀ user, (∃ r' ∈ [r], ShowsUser r' user) ↔ user = "app" := by
      intro user
      simp [← user?_eq_some_iff, hshown, @eq_comm _ user]
    have hmembers : ∀ user, user ∈ inactive ↔ user ∈ ["eve"] := by
      intro user
      rw [hinactive, List.mem_singleton]
      constructor
      · rintro ⟨hknown, hhidden⟩
        have hne : user ≠ "app" := fun he =>
          hhidden r List.mem_cons_self (by rw [← user?_eq_some_iff, hshown, he])
        simpa [twoUsers, hne] using hknown
      · rintro rfl
        refine ⟨List.mem_cons_self, fun r' hr' hshow => ?_⟩
        exact absurd ((hshows "eve").1 ⟨r', hr', hshow⟩) (by decide)
    obtain rfl := hordered.eq_of_mem_iff (List.pairwise_singleton _ "eve") hmembers
    exact ⟨r, rfl, a, seen, hsetup, hresult, (hseen "app").2 ((hshows "app").2 rfl)⟩

/-- A message about a connection that names no application. -/
def noApplication : String := "connection authorized: user=app database=shop"

/-- The user of a connection without the name of an application is taken for inactive. -/
theorem noApplication_unseen :
    TellsConnection noApplication.toList [] "app".toList "shop".toList [] ∧
    (processOnly.record ("7 LOG:  " ++ noApplication)).toOption.map
      (fun r =>
        (r.description, (inactiveUsers (processOnly.has .user) true ["app"]).resultOf [r])) =
      some (noApplication, .inactiveUsers ["app"] [] ["app"]) := by
  refine ⟨⟨by decide +kernel, ?_, ?_, by simp, fun before rest hsplit => ?_⟩, by decide +kernel⟩
  · exact List.all_eq_true.1 (by decide)
  · exact List.all_eq_true.1 (by decide)
  · -- the message has one colon
    have hcolon : "connection authorized:".toList = "connection authorized".toList ++ [':'] := by
      decide +kernel
    have hmessage : noApplication.toList =
        "connection authorized".toList ++ ':' :: " user=app database=shop".toList := by
      decide +kernel
    rw [hmessage, hcolon, List.append_assoc, List.singleton_append, ← List.append_assoc,
      List.append_cons_inj_of_notMem (by decide +kernel) (by decide +kernel)] at hsplit
    exact List.self_eq_append_left.1 hsplit.1

end Analyzer

end LogAudit.Audit
