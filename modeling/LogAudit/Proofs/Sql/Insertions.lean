import LogAudit.Proofs.Sql.Extraction

/-!
# Insertions fit their columns

Rows that fit their columns give the pairs of a column and a constant, cell by cell
(`rowPairs_fills`). A text has pairs if and only if the insertions in it are aligned; otherwise it
has the error of the first statement that does not fit, and no pairs of any other
(`extract_insertions`).
-/

namespace LogAudit.Sql

/-! ## Rows -/

/-- The pairs of a row under its columns: a cell that is a constant gives a pair, unless the
constant or the name of the column is empty, and nothing else does. -/
inductive Fills : List String → List Expr → List Pair → Prop where
  | nil : Fills [] [] []
  | pair {column text : String} {value : Expr} {columns : List String} {row : List Expr}
      {pairs : List Pair} (hvalue : value.Denotes text) (hfull : Pair.Full ⟨column, text⟩)
      (hrest : Fills columns row pairs) :
      Fills (column :: columns) (value :: row) (⟨column, text⟩ :: pairs)
  | pass {column : String} {value : Expr} {columns : List String} {row : List Expr}
      {pairs : List Pair} (hnone : ∀ text, value.Denotes text → ¬ Pair.Full ⟨column, text⟩)
      (hrest : Fills columns row pairs) :
      Fills (column :: columns) (value :: row) pairs

/-- The pairs of a row that is as long as its columns. -/
theorem rowPairs_fills {columns : List String} {row : List Expr}
    (h : row.length = columns.length) : Fills columns row (rowPairs columns row) := by
  induction columns generalizing row with
  | nil =>
    obtain rfl := List.length_eq_zero_iff.1 h
    exact .nil
  | cons column columns ih =>
    cases row with
    | nil => exact absurd h (by simp)
    | cons value row =>
      have hrest := ih (Nat.succ.inj h)
      have hcell : rowPairs (column :: columns) (value :: row) =
          Pair.of? (some column) value.literalText? ++ rowPairs columns row := rfl
      rw [hcell]
      by_cases hgiven : ∃ p, p ∈ Pair.of? (some column) value.literalText?
      · obtain ⟨⟨_, text⟩, hp⟩ := hgiven
        obtain ⟨hcolumn, hvalue, hfull⟩ := Pair.mem_of?.1 hp
        obtain rfl := Option.some.inj hcolumn
        have hpair : Pair.of? (some column) value.literalText? = [⟨column, text⟩] := by
          rw [hvalue, Pair.of?, if_neg (not_or.2 hfull)]
        rw [hpair]
        exact .pair (Expr.literalText?_eq_some_iff.1 hvalue) hfull hrest
      · have hpair : Pair.of? (some column) value.literalText? = [] :=
          List.eq_nil_iff_forall_not_mem.2 fun p hp => hgiven ⟨p, hp⟩
        rw [hpair]
        refine .pass (fun text hvalue hfull => hgiven ⟨⟨column, text⟩, ?_⟩) hrest
        exact Pair.mem_of?.2 ⟨rfl, Expr.literalText?_eq_some_iff.2 hvalue, hfull⟩

/-- The first row that does not fit is the error of the rows. -/
theorem rowsPairs_unfit {columns : List String} {before after : List (List Expr)} {row : List Expr}
    (hbefore : ∀ fit ∈ before, fit.length = columns.length) (hrow : row.length ≠ columns.length) :
    rowsPairs columns (before ++ row :: after) = .error (.rowLength columns.length row.length) := by
  induction before with
  | nil => rw [List.nil_append, rowsPairs, if_neg hrow]
  | cons fit before ih =>
    rw [List.forall_mem_cons] at hbefore
    rw [List.cons_append, rowsPairs, if_pos hbefore.1, ih hbefore.2]
    rfl

/-- Either all members of a list have a property, or there is a first one that has not. -/
theorem forall_or_exists_first {α : Type} (P : α → Prop) [DecidablePred P] (items : List α) :
    (∀ item ∈ items, P item) ∨
      ∃ before item after, items = before ++ item :: after ∧ (∀ b ∈ before, P b) ∧ ¬ P item := by
  cases hfind : items.find? (fun item => ¬ P item) with
  | none => exact .inl (by simpa using List.find?_eq_none.1 hfind)
  | some item =>
    obtain ⟨hitem, before, after, hsplit, hbefore⟩ := List.find?_eq_some_iff_append.1 hfind
    exact .inr ⟨before, item, after, hsplit, by simpa using hbefore, by simpa using hitem⟩

/-! ## Statements -/

namespace Statement

/-- An insertion does not fit its columns, and why: it is not made of rows, or the first of its rows
that has another length than the columns has this one. -/
inductive Misfits : Statement → ExtractError → Prop where
  | unsupported {column : String} {columns : List String} {source : Query}
      (hrows : source.rows? = none) :
      Misfits (.insert (column :: columns) (some source)) .unsupportedRows
  | rowLength {column : String} {columns : List String} {source : Query}
      {before after : List (List Expr)} {row : List Expr}
      (hrows : source.rows? = some (before ++ row :: after))
      (hbefore : ∀ fit ∈ before, fit.length = (column :: columns).length)
      (hrow : row.length ≠ (column :: columns).length) :
      Misfits (.insert (column :: columns) (some source))
        (.rowLength (column :: columns).length row.length)

/-- What a statement adds to the pairs of a text. An insertion adds the pairs of its rows, if it has
columns and a source; any other statement adds its own pairs. -/
inductive Adds : Statement → List Pair → Prop where
  | rows {column : String} {columns : List String} {source : Query} {rows : List (List Expr)}
      {told : List (List Pair)} (hrows : source.rows? = some rows)
      (htold : List.Forall₂ (Fills (column :: columns)) rows told) :
      Adds (.insert (column :: columns) (some source)) told.flatten
  | columnless (source : Option Query) : Adds (.insert [] source) []
  | sourceless (columns : List String) : Adds (.insert columns none) []
  | other {s : Statement} {pairs : List Pair}
      (hother : ∀ columns source, s ≠ .insert columns source) (hpairs : s.pairs = .ok pairs) :
      Adds s pairs

/-- The pairs of an insertion are those of its rows. -/
theorem pairs_insert (column : String) (columns : List String) (source : Query) :
    (insert (column :: columns) (some source)).pairs =
      match source.rows? with
      | some rows => rowsPairs (column :: columns) rows
      | none => .error .unsupportedRows := by
  obtain ⟨named, body⟩ := source
  cases body <;> rfl

/-- A statement that does not fit has the error that says why, and no pairs. -/
theorem Misfits.pairs_eq {s : Statement} {e : ExtractError} (h : s.Misfits e) :
    s.pairs = .error e := by
  cases h with
  | unsupported hrows => rw [pairs_insert, hrows]
  | rowLength hrows hbefore hrow =>
    rw [pairs_insert, hrows]
    exact rowsPairs_unfit hbefore hrow

/-- A statement that does not fit is not aligned. -/
theorem Misfits.not_aligned {s : Statement} {e : ExtractError} (h : s.Misfits e) :
    ¬ s.Aligned := by
  cases h with
  | unsupported hrows => simp [Aligned, hrows]
  | rowLength hrows hbefore hrow =>
    rintro ⟨rows, hmem, hfit⟩
    obtain rfl := Option.some.inj (hrows.symm.trans hmem)
    exact hrow (hfit _ (by simp))

/-- A statement that is not aligned does not fit in one of the two ways. -/
theorem exists_misfits {s : Statement} (h : ¬ s.Aligned) : ∃ e, s.Misfits e := by
  cases s with
  | insert columns source =>
    cases columns with
    | nil => exact absurd trivial h
    | cons column columns =>
      cases source with
      | none => exact absurd trivial h
      | some source =>
        cases hrows : source.rows? with
        | none => exact ⟨_, .unsupported hrows⟩
        | some rows =>
          obtain hfit | ⟨before, row, after, rfl, hbefore, hrow⟩ :=
            forall_or_exists_first (fun row => row.length = (column :: columns).length) rows
          · exact absurd ⟨rows, hrows, hfit⟩ h
          · exact ⟨_, .rowLength hrows hbefore hrow⟩
  | _ => exact absurd trivial h

/-- A statement that is aligned has pairs, and adds them. -/
theorem Aligned.exists_adds {s : Statement} (h : s.Aligned) :
    ∃ pairs, s.pairs = .ok pairs ∧ s.Adds pairs := by
  cases s with
  | insert columns source =>
    cases columns with
    | nil => exact ⟨[], rfl, .columnless source⟩
    | cons column columns =>
      cases source with
      | none => exact ⟨[], rfl, .sourceless _⟩
      | some source =>
        obtain ⟨rows, hrows, hfit⟩ := h
        have htold : List.Forall₂ (Fills (column :: columns)) rows
            (rows.map (rowPairs (column :: columns))) := by
          rw [List.forall₂_map_right_iff, List.forall₂_same]
          exact fun row hrow => rowPairs_fills (hfit row hrow)
        refine ⟨_, ?_, .rows hrows htold⟩
        rw [pairs_insert, hrows, ← List.flatMap_def]
        exact rowsPairs_eq hfit
  | query | update | delete | command => exact ⟨_, rfl, .other nofun rfl⟩

/-- The first statement that does not fit is the error of all of them. -/
theorem Misfits.allPairs_eq {before after : List Statement} {s : Statement} {e : ExtractError}
    (h : s.Misfits e) (hbefore : ∀ b ∈ before, b.Aligned) :
    allPairs (before ++ s :: after) = .error e := by
  induction before with
  | nil =>
    rw [List.nil_append, allPairs, h.pairs_eq]
    rfl
  | cons b before ih =>
    rw [List.forall_mem_cons] at hbefore
    obtain ⟨pairs, hpairs, -⟩ := hbefore.1.exists_adds
    rw [List.cons_append, allPairs, hpairs, ih hbefore.2]
    rfl

/-- Statements that are aligned have the pairs that each of them adds. -/
theorem exists_allPairs {statements : List Statement} (h : ∀ s ∈ statements, s.Aligned) :
    ∃ told, List.Forall₂ Adds statements told ∧ allPairs statements = .ok told.flatten := by
  induction statements with
  | nil => exact ⟨[], .nil, rfl⟩
  | cons s statements ih =>
    rw [List.forall_mem_cons] at h
    obtain ⟨pairs, hpairs, hadds⟩ := h.1.exists_adds
    obtain ⟨told, htold, hall⟩ := ih h.2
    refine ⟨pairs :: told, .cons hadds htold, ?_⟩
    rw [allPairs, hpairs, hall]
    rfl

end Statement

/-- Insertions are aligned or nothing is kept. However texts are read, a text has pairs if and only
if every statement of it is aligned; it has an error if and only if this is the one of the first
statement that does not fit; and its pairs are what its statements add, one after the other. -/
theorem extract_insertions {read : StatementReader} {sql : String} {statements : List Statement}
    (hread : read sql = .ok statements) :
    ((∃ found, extract read sql = .ok found) ↔ ∀ s ∈ statements, s.Aligned) ∧
    (∀ e, extract read sql = .error e ↔ ∃ before s after, statements = before ++ s :: after ∧
      (∀ b ∈ before, b.Aligned) ∧ s.Misfits e) ∧
    (∀ found, extract read sql = .ok found →
      ∃ told, List.Forall₂ Statement.Adds statements told ∧ found.pairs = told.flatten) := by
  rw [extract_eq hread]
  obtain haligned | ⟨before, s, after, rfl, hbefore, hs⟩ :=
    forall_or_exists_first Statement.Aligned statements
  · obtain ⟨told, htold, hall⟩ := Statement.exists_allPairs haligned
    rw [hall]
    refine ⟨iff_of_true ⟨_, rfl⟩ haligned, fun e => iff_of_false nofun ?_, ?_⟩
    · rintro ⟨before, s, after, rfl, -, hmisfits⟩
      exact hmisfits.not_aligned (haligned s (by simp))
    · rintro found ⟨⟩
      exact ⟨told, htold, rfl⟩
  · obtain ⟨e, hmisfits⟩ := Statement.exists_misfits hs
    have hall : Statement.allPairs (before ++ s :: after) = .error e := hmisfits.allPairs_eq hbefore
    rw [hall]
    refine ⟨iff_of_false nofun fun h => hs (h s (by simp)), fun e' => ⟨?_, ?_⟩, nofun⟩
    · intro h
      obtain rfl := Except.error.inj h
      exact ⟨before, s, after, rfl, hbefore, hmisfits⟩
    · rintro ⟨before', s', after', hsplit, hbefore', hmisfits'⟩
      rw [hsplit, hmisfits'.allPairs_eq hbefore'] at hall
      rw [Except.error.inj hall]
      rfl

/-- Two rows that fit, with a column and an empty text among their values, and the same rows before
an insertion whose second row does not fit. -/
theorem extract_insertions_rows :
    let sql := "INSERT INTO t (a, b) VALUES (1, c), ('x', '')"
    let sql' := sql ++ "; INSERT INTO t (a) VALUES (2), (3, 4)"
    (∃ statements told, Statement.readAll sql = .ok statements ∧
      List.Forall₂ Statement.Adds statements told ∧ told.flatten = [⟨"a", "1"⟩, ⟨"a", "x"⟩]) ∧
    ∃ before s after, Statement.readAll sql' = .ok (before ++ s :: after) ∧
      (∀ b ∈ before, b.Aligned) ∧ s.Misfits (.rowLength 1 2) := by
  intro sql sql'
  have hpairs : extract Statement.readAll sql = .ok ⟨[⟨"a", "1"⟩, ⟨"a", "x"⟩]⟩ := by decide +kernel
  have herror : extract Statement.readAll sql' = .error (.rowLength 1 2) := by decide +kernel
  have hsyntax (text : String) : extract Statement.readAll sql ≠ .error (.syntaxError text) := by
    simp [hpairs]
  have hsyntax' (text : String) : extract Statement.readAll sql' ≠ .error (.syntaxError text) := by
    simp [herror]
  obtain ⟨statements, hstatements⟩ := exists_read hsyntax
  obtain ⟨statements', hstatements'⟩ := exists_read hsyntax'
  obtain ⟨told, hadds, htold⟩ := (extract_insertions hstatements).2.2 _ hpairs
  obtain ⟨before, s, after, rfl, haligned, hmisfits⟩ :=
    ((extract_insertions hstatements').2.1 _).1 herror
  exact ⟨⟨statements, told, hstatements, hadds, htold.symm⟩, before, s, after, hstatements',
    haligned, hmisfits⟩

/-- A column may have an empty name in quotes, and a constant under it gives no pair; an insertion
behind `WITH` is a query and adds nothing. -/
theorem emptyColumn_dropped :
    extract Statement.readAll "INSERT INTO t (\"\") VALUES (1)" = .ok ⟨[]⟩ ∧
    extract Statement.readAll "INSERT INTO t (\"\", a) VALUES (1, 2)" = .ok ⟨[⟨"a", "2"⟩]⟩ ∧
    extract Statement.readAll "WITH x AS (SELECT 1) INSERT INTO t (a) VALUES (1)" = .ok ⟨[]⟩ := by
  decide +kernel

end LogAudit.Sql
