import LogAudit.Proofs.Sql.Nodes
import LogAudit.Sql.Statement

/-!
# What is extracted from a text

The pairs of a part are, in some order, those of the nodes at its top and those of the parts inside
it (`Part.pairs_perm`). By induction on the size a part tells its pairs, and with it a statement,
and the pairs of a text are those of its statements one after the other (`extract_told`).
-/

namespace LogAudit.Sql

/-! ## The pairs of a part -/

/-- The pairs of a part. -/
def Part.pairs : Part → List Pair
  | .expr e => e.pairs
  | .query q => q.pairs
  | .body b => b.pairs

/-- The pairs of several expressions are those of each as a part. -/
theorem Expr.listPairs_eq (items : List Expr) :
    Expr.listPairs items = (items.map Part.expr).flatMap Part.pairs := by
  induction items with
  | nil => rw [Expr.listPairs]; rfl
  | cons e items ih => rw [Expr.listPairs, ih]; rfl

/-- The pairs of an expression that may be missing are those of it as a part. -/
theorem Expr.optionalPairs_eq (e : Option Expr) :
    Expr.optionalPairs e = (e.toList.map Part.expr).flatMap Part.pairs := by
  cases e with
  | none => rw [Expr.optionalPairs]; rfl
  | some e => rw [Expr.optionalPairs]; exact (List.append_nil _).symm

/-- Candidates have their own pairs and those inside them. -/
theorem Expr.itemPairs_perm (subject : Expr) (items : List Expr) :
    (Expr.itemPairs subject.columnName? items).Perm
      ((items.map (Node.candidate subject)).flatMap Node.pairs
        ++ (items.map Part.expr).flatMap Part.pairs) := by
  induction items with
  | nil => rw [Expr.itemPairs]; exact .nil
  | cons e items ih =>
    rw [Expr.itemPairs, List.map_cons, List.map_cons, List.flatMap_cons, List.flatMap_cons,
      List.append_assoc]
    refine .append_left _ ((ih.append_left e.pairs).trans ?_)
    rw [← List.append_assoc, ← List.append_assoc]
    exact .append_right _ List.perm_append_comm

/-- The pairs of a part are those of the nodes at its top and those of its own parts. -/
theorem Part.pairs_perm (part : Part) : part.pairs.Perm
    (part.layer.nodes.flatMap Node.pairs ++ part.layer.parts.flatMap Part.pairs) := by
  rcases part with e | q | b
  · cases e with
    | binary op left right =>
      rw [Part.pairs, Expr.pairs, Operator.pairs]
      simp only [Part.layer, ← Operator.isComparison_iff]
      split <;> simp [Part.pairs, Node.pairs]
    | inList subject items =>
      rw [Part.pairs, Expr.pairs]
      exact Expr.itemPairs_perm subject items
    | _ =>
      simp [Part.pairs, Part.layer, Expr.pairs, Node.pairs, Expr.listPairs_eq,
        Expr.optionalPairs_eq]
  · cases q
    simp [Part.pairs, Part.layer, Query.pairs]
  · cases b <;> simp [Part.pairs, Part.layer, Body.pairs, Expr.optionalPairs_eq]

/-- Expressions of a list are no larger than the list. -/
theorem Part.sizeOf_le_of_mem {items : List Expr} {part : Part} (h : part ∈ items.map .expr) :
    sizeOf part ≤ sizeOf items := by
  obtain ⟨e, he, rfl⟩ := List.mem_map.1 h
  have hitem := List.sizeOf_lt_of_mem he
  rw [expr.sizeOf_spec]
  omega

/-- An expression that is there is no larger than one that may be missing. -/
theorem Part.sizeOf_le_of_mem_toList {o : Option Expr} {part : Part}
    (h : part ∈ o.toList.map .expr) : sizeOf part ≤ sizeOf o := by
  obtain ⟨e, he, rfl⟩ := List.mem_map.1 h
  obtain rfl := Option.mem_toList.1 he
  exact Nat.le_refl _

/-- What is inside a part is smaller than it. -/
theorem Part.sizeOf_lt {part inside : Part} (h : inside ∈ part.layer.parts) :
    sizeOf inside < sizeOf part := by
  rcases part with e | q | b
  · cases e with
    | column path => exact absurd h List.not_mem_nil
    | literal value => exact absurd h List.not_mem_nil
    | form operands => exact absurd h List.not_mem_nil
    | inList subject items =>
      have hsize := sizeOf_le_of_mem h
      simp
      omega
    | cases operand conditions results otherwise =>
      simp only [layer, List.map_append, List.mem_append] at h
      rcases h with ((h | h) | h) | h
      · have hsize := sizeOf_le_of_mem_toList h
        simp
        omega
      · have hsize := sizeOf_le_of_mem_toList h
        simp
        omega
      · have hsize := sizeOf_le_of_mem h
        simp
        omega
      · have hsize := sizeOf_le_of_mem h
        simp
        omega
    | tuple items =>
      have hsize := sizeOf_le_of_mem h
      simp
      omega
    | binary | like | between | inQuery =>
      rcases List.mem_pair.1 h with rfl | rfl <;> simp <;> omega
    | existence | scalar | nested | unary | test | cast | collate =>
      obtain rfl := List.mem_singleton.1 h
      simp
  · obtain ⟨named, content⟩ := q
    obtain rfl := List.mem_singleton.1 h
    simp only [body.sizeOf_spec, query.sizeOf_spec, Query.mk.sizeOf_spec]
    omega
  · cases b with
    | select _ _ selection having =>
      simp only [layer, List.map_append, List.mem_append] at h
      rcases h with h | h
      · have hsize := sizeOf_le_of_mem_toList h
        simp
        omega
      · have hsize := sizeOf_le_of_mem_toList h
        simp
        omega
    | query inside =>
      obtain rfl := List.mem_singleton.1 h
      simp
    | setOperation left right => rcases List.mem_pair.1 h with rfl | rfl <;> simp <;> omega
    | values rows => exact absurd h List.not_mem_nil
    | table => exact absurd h List.not_mem_nil

/-- A part tells its pairs. -/
theorem Part.tells (part : Part) : part.layer.Tells part.pairs :=
  Layer.tells_of_parts (fun inside _ => inside.tells) part.pairs_perm
termination_by sizeOf part
decreasing_by exact Part.sizeOf_lt ‹_›

/-! ## Statements -/

/-- The rows of a query that is made of rows. -/
def Query.rows? : Query → Option (List (List Expr))
  | .mk _ (.values rows) => some rows
  | _ => none

/-- What fills the columns of an insertion fits them: it is made of rows, and each row has a value
for every column. An insertion that names no columns, or that nothing fills, has nothing to fit. -/
def Statement.Aligned : Statement → Prop
  | .insert (column :: columns) (some source) =>
    ∃ rows ∈ source.rows?, ∀ row ∈ rows, row.length = (column :: columns).length
  | _ => True

instance Statement.decidableAligned : DecidablePred Statement.Aligned
  | .insert (column :: columns) (some source) => inferInstanceAs <| Decidable <|
    ∃ rows ∈ source.rows?, ∀ row ∈ rows, row.length = (column :: columns).length
  | .insert [] _ => .isTrue trivial
  | .insert (_ :: _) none => .isTrue trivial
  | .query _ => .isTrue trivial
  | .update _ _ => .isTrue trivial
  | .delete _ => .isTrue trivial
  | .command => .isTrue trivial

/-- Rows that fit have the pairs of each. -/
theorem rowsPairs_eq {columns : List String} {rows : List (List Expr)}
    (h : ∀ row ∈ rows, row.length = columns.length) :
    rowsPairs columns rows = .ok (rows.flatMap (rowPairs columns)) := by
  induction rows with
  | nil => rfl
  | cons row rows ih =>
    rw [List.forall_mem_cons] at h
    rw [rowsPairs, if_pos h.1, ih h.2]
    rfl

/-- Assignments have their own pairs and those of the values assigned. -/
theorem flatMap_assignmentPairs_perm (assignments : List (Option String × Expr)) :
    (assignments.flatMap assignmentPairs).Perm
      ((assignments.map fun a => Node.assignment a.1 a.2).flatMap Node.pairs
        ++ ((assignments.map Prod.snd).map Part.expr).flatMap Part.pairs) := by
  rw [List.flatMap_map, List.map_map, List.flatMap_map]
  exact (List.flatMap_append_perm _ _ _).symm

/-- A row has the pairs of its columns and values. -/
theorem rowPairs_eq (columns : List String) : rowPairs columns = fun row =>
    ((columns.zip row).map fun a => Node.assignment (some a.1) a.2).flatMap Node.pairs := by
  funext row
  rw [List.flatMap_map]
  rfl

/-- A statement that tells the pairs of its own nodes and those of its parts. -/
theorem Statement.tells_of_parts {s : Statement} {pairs : List Pair}
    (h : pairs.Perm (s.layer.nodes.flatMap Node.pairs ++ s.layer.parts.flatMap Part.pairs)) :
    s.layer.Tells pairs :=
  Layer.tells_of_parts (fun part _ => part.tells) h

/-- A statement whose insertion is aligned has pairs and tells them. -/
theorem Statement.Aligned.tells {s : Statement} (h : s.Aligned) :
    ∃ pairs, s.pairs = .ok pairs ∧ s.layer.Tells pairs := by
  cases s with
  | query q =>
    refine ⟨q.pairs, rfl, tells_of_parts ?_⟩
    simp [layer, Part.pairs]
  | update assignments selection =>
    refine ⟨_, rfl, tells_of_parts ?_⟩
    rw [Expr.optionalPairs_eq]
    simp only [layer, List.map_append, List.flatMap_append]
    rw [← List.append_assoc]
    exact (flatMap_assignmentPairs_perm assignments).append_right _
  | delete selection =>
    refine ⟨_, rfl, tells_of_parts ?_⟩
    simp [Expr.optionalPairs_eq, layer]
  | insert columns source =>
    rcases columns with _ | ⟨column, columns⟩
    · refine ⟨[], rfl, tells_of_parts ?_⟩
      rcases source with _ | ⟨named, _ | _ | _ | _ | _⟩ <;> simp [layer]
    · rcases source with _ | source
      · exact ⟨[], rfl, tells_of_parts .nil⟩
      · obtain ⟨rows, hrows, hlength⟩ := h
        obtain ⟨named, body⟩ := source
        cases body with
        | values content =>
          obtain rfl := Option.some.inj hrows
          refine ⟨_, rowsPairs_eq hlength, tells_of_parts ?_⟩
          rw [rowPairs_eq]
          simp [layer, List.flatMap_assoc]
        | _ => exact absurd hrows (by simp [Query.rows?])
  | command => exact ⟨[], rfl, tells_of_parts .nil⟩

/-- The pairs of statements are those of the first, then those of the second, and so on, and each
statement tells its own. -/
theorem Statement.exists_told {statements : List Statement} (h : ∀ s ∈ statements, s.Aligned) :
    ∃ told : List (List Pair),
      List.Forall₂ (fun s pairs => s.layer.Tells pairs) statements told ∧
      allPairs statements = .ok told.flatten := by
  induction statements with
  | nil => exact ⟨[], .nil, rfl⟩
  | cons s statements ih =>
    rw [List.forall_mem_cons] at h
    obtain ⟨pairs, hfirst, htells⟩ := h.1.tells
    obtain ⟨told, hothers, hpairs⟩ := ih h.2
    refine ⟨pairs :: told, .cons htells hothers, ?_⟩
    rw [allPairs, hfirst, hpairs]
    rfl

/-- However texts are read, if a text is read as statements whose insertions are aligned, its pairs
are those of the first statement, then those of the second, and so on, and each statement tells its
own. -/
theorem extract_told {read : StatementReader} {sql : String} {statements : List Statement}
    (hread : read sql = .ok statements) (haligned : ∀ s ∈ statements, s.Aligned) :
    ∃ told : List (List Pair),
      List.Forall₂ (fun s pairs => s.layer.Tells pairs) statements told ∧
      extract read sql = .ok ⟨told.flatten⟩ := by
  obtain ⟨told, htells, hpairs⟩ := Statement.exists_told haligned
  refine ⟨told, htells, ?_⟩
  rw [extract_eq hread, hpairs]
  rfl

/-- A condition in a query in a condition, an assignment, and a row that is as long as its
columns. -/
theorem extract_told_nested :
    let sql := "UPDATE t SET a = 'x' WHERE b IN (SELECT c FROM u WHERE u.d >= 1) OR 'y' <> e;" ++
      "INSERT INTO t (a, b) VALUES ('z', 2)"
    ∃ statements, Statement.readAll sql = .ok statements ∧ (∀ s ∈ statements, s.Aligned) ∧
      ∃ told : List (List Pair),
        List.Forall₂ (fun s pairs => s.layer.Tells pairs) statements told ∧
        extract Statement.readAll sql = .ok ⟨told.flatten⟩ ∧
        told.flatten = [⟨"a", "x"⟩, ⟨"d", "1"⟩, ⟨"e", "y"⟩, ⟨"a", "z"⟩, ⟨"b", "2"⟩] := by
  intro sql
  have hread : (Statement.readAll sql).map (fun statements =>
      decide (∀ s ∈ statements, s.Aligned)) = .ok true := by
    decide +kernel
  have hpairs : extract Statement.readAll sql =
      .ok ⟨[⟨"a", "x"⟩, ⟨"d", "1"⟩, ⟨"e", "y"⟩, ⟨"a", "z"⟩, ⟨"b", "2"⟩]⟩ := by
    decide +kernel
  cases hstatements : Statement.readAll sql with
  | error text =>
    rw [hstatements] at hread
    cases hread
  | ok statements =>
    rw [hstatements] at hread
    have haligned := of_decide_eq_true (Except.ok.inj hread)
    obtain ⟨told, htells, htext⟩ := extract_told hstatements haligned
    refine ⟨statements, rfl, haligned, told, htells, htext, ?_⟩
    exact congrArg PairCollection.pairs (Except.ok.inj (htext.symm.trans hpairs))

end LogAudit.Sql
