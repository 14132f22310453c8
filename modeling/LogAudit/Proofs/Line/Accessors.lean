import LogAudit.Proofs.Line.Layout

/-!
# What accessors tell

An accessor of a record fails as not configured if the template has no token for its slot, and as
invalid if the line leaves the last such token out, or has an empty text or the one for unknown
fields there; a value is a part of the line that is neither empty nor unknown (`Keeps`). All
accessors keep this but the one of the host, which looks at the text before it takes the port away:
what is left may be empty or unknown (`Record.accessors_keep`, `Record.host_without_name`).
-/

namespace LogAudit.Line

open LogAudit.Text LogAudit.Time

/-! ## Hosts without their ports -/

/-- A text up to its port. -/
def withoutPort (text : List Char) : List Char := text.takeWhile (· != '(')

theorem withoutPort_name_append {name : List Char} (hname : '(' ∉ name) (rest : List Char) :
    withoutPort (name ++ rest) = name ++ withoutPort rest :=
  List.takeWhile_append_of_pos fun _ hc => bne_iff_ne.2 fun hsame => hname (hsame ▸ hc)

/-- The name of a host without a port is left as it is. -/
theorem withoutPort_eq_self {name : List Char} (hname : '(' ∉ name) : withoutPort name = name := by
  have hnil : withoutPort [] = [] := rfl
  have hself := withoutPort_name_append hname []
  rwa [hnil, List.append_nil] at hself

/-- The name in front of a port is what is left. -/
theorem withoutPort_append {name : List Char} (hname : '(' ∉ name) (port : List Char) :
    withoutPort (name ++ '(' :: port) = name := by
  rw [withoutPort_name_append hname, withoutPort, List.takeWhile_cons_of_neg (by simp), List.append_nil]

/-- A name is left of another text if the port stands directly behind it. -/
theorem withoutPort_eq_iff {text name : List Char} (hname : '(' ∉ name) (hne : text ≠ name) :
    withoutPort text = name ↔ name ++ ['('] <+: text := by
  constructor
  · intro hleft
    have hsplit : withoutPort text ++ text.dropWhile (· != '(') = text :=
      List.takeWhile_append_dropWhile
    rw [hleft] at hsplit
    have hopens := List.head?_dropWhile_not (· != '(') text
    cases hport : text.dropWhile (· != '(') with
    | nil =>
      rw [hport, List.append_nil] at hsplit
      exact absurd hsplit.symm hne
    | cons c port =>
      obtain rfl : c = '(' := by simpa [hport] using hopens
      exact ⟨port, by rw [List.append_assoc, List.singleton_append, ← hport, hsplit]⟩
  · rintro ⟨port, rfl⟩
    rw [List.append_assoc, List.singleton_append]
    exact withoutPort_append hname port

/-! ## Values -/

namespace Shows

/-- The text of a token is a part of what the pieces show. -/
theorem infix_of_mem {pieces : List Piece} {shown : List Char} {texts : List (Option (List Char))}
    (h : Shows pieces shown texts) {text : List Char} (hmem : some text ∈ texts) :
    text <:+: shown := by
  induction h with
  | nil => exact absurd hmem List.not_mem_nil
  | literal c later ih => exact (ih hmem).trans (List.suffix_cons c _).isInfix
  | @field pieces shown texts token text' described later ih =>
    rcases List.mem_cons.1 hmem with hsame | hmem
    · obtain rfl := Option.some.inj hsame
      exact (List.prefix_append text shown).isInfix
    · exact (ih hmem).trans (List.suffix_append text' shown).isInfix
  | absent mayBeAbsent later ih =>
    exact ih ((List.mem_cons.1 hmem).resolve_left (by simp))
  | goOn later ih => exact ih hmem
  | stop pieces => simp at hmem

end Shows

namespace Layout

variable {x : Layout} {t : Template} {slot : Slot}

/-- There is a text for a slot, or it is known to be left out, if there is a token for it. -/
theorem textFor_eq_none_iff (hfits : x.Fits t) :
    x.textFor t slot = none ↔ ∀ token ∈ t.tokens, token.slot ≠ slot := by
  have hlength : x.texts.length = t.tokens.length := hfits.shows.length_texts
  rw [Template.textFor_eq hlength, ← Template.lastIndex?_eq_none_iff]
  cases hlast : Template.lastIndex? slot t.tokens with
  | none => simp
  | some last =>
    obtain ⟨⟨token, htoken, -⟩, -⟩ := Template.isLast_of_lastIndex? hlast
    have hlt : last < x.texts.length := hlength ▸ (List.getElem?_eq_some_iff.1 htoken).1
    simp [List.getElem?_eq_getElem hlt]

/-- The text for a slot is a part of the line. -/
theorem infix_of_textFor (hfits : x.Fits t) {text : List Char}
    (h : x.textFor t slot = some (some text)) : text <:+: x.line := by
  obtain ⟨field, hfield, htext⟩ := Option.map_eq_some_iff.1 h
  have hzip := List.mem_filter.1 (List.mem_of_getLast? hfield)
  have hmem : some text ∈ x.texts := htext ▸ (List.of_mem_zip hzip.1).2
  have hshown : x.shown <:+: x.line :=
    ((List.prefix_append x.shown _).isInfix).trans (List.suffix_append x.before _).isInfix
  exact (hfits.shows.infix_of_mem hmem).trans hshown

/-- A value is told where the line has a text for the slot that is neither empty nor unknown. -/
theorem field_eq_ok_iff {v : String} : x.field t slot = .ok v ↔
    x.textFor t slot = some (some v.toList) ∧ v.toList ≠ [] ∧ v.toList ≠ unknownField.toList := by
  rw [field]
  rcases x.textFor t slot with _ | _ | text
  · simp
  · simp
  · have hsame : String.ofList text = v ↔ text = v.toList := by
      rw [← String.toList_inj, String.toList_ofList]
    by_cases hinvalid : text = [] ∨ text = unknownField.toList
    · simp only [hinvalid, if_true, reduceCtorEq, Option.some.injEq, false_iff]
      rintro ⟨rfl, hempty, hunknown⟩
      exact hinvalid.elim hempty hunknown
    · simp only [hinvalid, if_false, Except.ok.injEq, Option.some.injEq, hsame]
      refine ⟨?_, And.left⟩
      rintro rfl
      exact ⟨rfl, not_or.1 hinvalid⟩

end Layout

/-- What an accessor is to tell of a line, where the line has this text for the slot; `shorten` is
what the accessor takes of a text. -/
structure Keeps (t : Template) (line : String) (slot : Slot) (text? : Option (Option (List Char)))
    (shorten : List Char → List Char) (answer : Except FieldError String) : Prop where
  /-- Without a token for the slot the answer is that it is not configured. -/
  notConfigured : answer = .error (.notConfigured slot) ↔ ∀ token ∈ t.tokens, token.slot ≠ slot
  /-- A token that is left out, empty or unknown has no valid value. -/
  invalidValue : answer = .error (.invalidValue slot) ↔
    text? = some none ∨ text? = some (some []) ∨ text? = some (some unknownField.toList)
  /-- Any other text is told. -/
  told : ∀ text, text? = some (some text) → text ≠ [] → text ≠ unknownField.toList →
    answer = .ok (String.ofList (shorten text))
  /-- A value is a part of the line, neither empty nor unknown. -/
  value : ∀ v, answer = .ok v → v ≠ "" ∧ v ≠ unknownField ∧ v.toList <:+: line.toList

section Keeps

variable {t : Template} {line : String} {skipped : List Char} {x : Layout}

/-- The text for a slot is a part of a line that ends with the layout. -/
theorem infix_line (hline : line.toList = skipped ++ x.line) (hfits : x.Fits t) {slot : Slot}
    {text : List Char} (h : x.textFor t slot = some (some text)) : text <:+: line.toList := by
  rw [hline]
  exact (Layout.infix_of_textFor hfits h).trans (List.suffix_append skipped x.line).isInfix

/-- The answer for a slot keeps what an accessor is to tell. -/
theorem Layout.keeps_field (hline : line.toList = skipped ++ x.line) (hfits : x.Fits t)
    (slot : Slot) : Keeps t line slot (x.textFor t slot) id (x.field t slot) where
  notConfigured := by
    rw [← Layout.textFor_eq_none_iff hfits, Layout.field]
    rcases x.textFor t slot with _ | _ | text
    · simp
    · simp
    · by_cases hinvalid : text = [] ∨ text = unknownField.toList <;> simp [hinvalid]
  invalidValue := by
    rw [Layout.field]
    rcases x.textFor t slot with _ | _ | text
    · simp
    · simp
    · by_cases hinvalid : text = [] ∨ text = unknownField.toList <;> simp [hinvalid]
  told text htext hempty hunknown :=
    Layout.field_eq_ok_iff.2 ⟨by rw [htext, id, String.toList_ofList], by simpa, by simpa⟩
  value v hvalue := by
    obtain ⟨htext, hempty, hunknown⟩ := Layout.field_eq_ok_iff.1 hvalue
    refine ⟨?_, ?_, infix_line hline hfits htext⟩
    · rintro rfl
      exact hempty rfl
    · rintro rfl
      exact hunknown rfl

/-- The answer for the host keeps what an accessor is to tell unless a port stands directly in
front of the text or behind the text for unknown fields. -/
theorem Layout.keeps_host_iff (hline : line.toList = skipped ++ x.line) (hfits : x.Fits t) :
    Keeps t line .host (x.textFor t .host) withoutPort
        ((x.field t .host).map fun text => String.ofList (withoutPort text.toList)) ↔
      ∀ text, x.textFor t .host = some (some text) →
        ¬ ['('] <+: text ∧ ¬ unknownField.toList ++ ['('] <+: text := by
  have hfield := Layout.keeps_field hline hfits .host
  have herror : ∀ e, (x.field t .host).map
      (fun text => String.ofList (withoutPort text.toList)) = .error e ↔
        x.field t .host = .error e := by
    intro e
    cases x.field t .host <;> simp [Except.map]
  constructor
  · intro hkeeps text htext
    -- a name that is no value is not what is left of the text
    have hleft : ∀ name, name = [] ∨ name = unknownField.toList → text ≠ [] →
        text ≠ unknownField.toList → withoutPort text ≠ name := by
      rintro name hname hempty hunknown rfl
      have hvalue := hkeeps.value _ (hkeeps.told text htext hempty hunknown)
      rcases hname with hname | hname
      · exact hvalue.1 (congrArg String.ofList hname)
      · exact hvalue.2.1 (by rw [hname, String.ofList_toList])
    constructor
    · intro hport
      refine hleft [] (.inl rfl) ?_ ?_ ((withoutPort_eq_iff (by simp) ?_).2 hport)
      all_goals
        rintro rfl
        exact absurd hport (by decide)
    · intro hport
      refine hleft _ (.inr rfl) ?_ ?_ ((withoutPort_eq_iff (by decide) ?_).2 hport)
      all_goals
        rintro rfl
        exact absurd hport (by decide)
  · intro hclear
    refine ⟨(herror _).trans hfield.notConfigured, (herror _).trans hfield.invalidValue, ?_, ?_⟩
    · intro text htext hempty hunknown
      rw [hfield.told text htext hempty hunknown, Except.map, id, String.toList_ofList]
    · intro v hv
      cases htold : x.field t .host with
      | error e => simp [htold, Except.map] at hv
      | ok text =>
        rw [htold] at hv
        obtain rfl := Except.ok.inj hv
        obtain ⟨htext, hempty, hunknown⟩ := Layout.field_eq_ok_iff.1 htold
        obtain ⟨hopens, hbehind⟩ := hclear _ htext
        have hshort : withoutPort text.toList <:+: line.toList :=
          (List.takeWhile_prefix _).isInfix.trans (infix_line hline hfits htext)
        refine ⟨fun hsame => hopens ?_, fun hsame => hbehind ?_, ?_⟩
        · rw [← String.toList_inj, String.toList_ofList] at hsame
          exact (withoutPort_eq_iff (by simp) hempty).1 hsame
        · rw [← String.toList_inj, String.toList_ofList] at hsame
          exact (withoutPort_eq_iff (by decide) hunknown).1 hsame
        · rwa [String.toList_ofList]

end Keeps

/-- The answers of a record for a line are those that accessors are to give, except that a host may
be empty or unknown where only a port is in the way. -/
theorem Record.accessors_keep {t : Template} {style : ZoneStyle} {line : String} {r : Record}
    (h : (t.read style line).1 = .ok r) :
    ∃ (skipped : List Char) (x : Layout), line.toList = skipped ++ x.line ∧ x.Fits t ∧
      x.ToldBy r ∧
      Keeps t line .user (x.textFor t .user) id r.user ∧
      Keeps t line .database (x.textFor t .database) id r.database ∧
      Keeps t line .application (x.textFor t .application) id r.application ∧
      Keeps t line .errorCode (x.textFor t .errorCode) id r.errorCode ∧
      Keeps t line .processId (x.textFor t .processId) id r.processId ∧
      Keeps t line .sessionId (x.textFor t .sessionId) id r.sessionId ∧
      (Keeps t line .host (x.textFor t .host) withoutPort r.host ↔
        ∀ text, x.textFor t .host = some (some text) →
          ¬ ['('] <+: text ∧ ¬ unknownField.toList ++ ['('] <+: text) := by
  obtain ⟨rfl, skipped, x, hline, hfits, htold, -⟩ := Template.exists_layout_of_read h
  have hfield : ∀ slot, Keeps r.template line slot (x.textFor r.template slot) id (r.field slot) :=
    fun slot => htold.field slot ▸ Layout.keeps_field hline hfits slot
  refine ⟨skipped, x, hline, hfits, htold, hfield _, hfield _, hfield _, hfield _, hfield _,
    hfield _, ?_⟩
  rw [← Layout.keeps_host_iff hline hfits, Record.host, htold.field]
  rfl

/-- The template `%u %h `. -/
def userAndHost : Template :=
  ⟨[.token .user, .literal ' ', .token .host, .literal ' '], by decide⟩

/-- A line with a port, but no name of a host in front of it. -/
def onlyPort : String := "bob (5432) LOG:  hi"

theorem Record.onlyPort_told : ∃ r, (userAndHost.read .numeric onlyPort).1 = .ok r ∧
    ∃ x : Layout, x.Fits userAndHost ∧ x.ToldBy r ∧
      Keeps userAndHost onlyPort .user (x.textFor userAndHost .user) id r.user ∧
      ¬ Keeps userAndHost onlyPort .host (x.textFor userAndHost .host) withoutPort r.host := by
  have htold : (userAndHost.read .numeric onlyPort).1.toOption.map
      (fun r => r.host.toOption) = some (some "") := by decide +kernel
  cases hread : (userAndHost.read .numeric onlyPort).1 with
  | error e => simp [hread, Except.toOption] at htold
  | ok r =>
    obtain ⟨_, x, -, hfits, hx, huser, -⟩ := Record.accessors_keep hread
    refine ⟨r, rfl, x, hfits, hx, huser, fun hhost => ?_⟩
    cases hvalue : r.host with
    | error e => simp [hread, hvalue, Except.toOption] at htold
    | ok v =>
      obtain rfl : v = "" := by simpa [hread, hvalue, Except.toOption] using htold
      exact (hhost.value _ hvalue).1 rfl

/-- The host that is told is empty where the line has only its port, and unknown where the port
stands behind the text for unknown fields. -/
theorem Record.host_without_name :
    Template.ofString? "%u %h " = .ok userAndHost ∧
    (userAndHost.record onlyPort).toOption.map (fun r => r.host.toOption) = some (some "") ∧
    (userAndHost.record "bob [unknown](5432) LOG:  hi").toOption.map (fun r => r.host.toOption) =
      some (some unknownField) := by
  refine ⟨rfl, ?_, ?_⟩ <;> decide +kernel

end LogAudit.Line
