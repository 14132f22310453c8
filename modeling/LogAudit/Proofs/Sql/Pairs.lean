import LogAudit.Sql.Pairs

/-!
# The pairs of a tree as a list

What is collected from a tree does not depend on what was collected before, so that every tree has a
list of pairs of its own, which collecting adds behind the others (`Expr.collect_eq`). The list of a
node is put together from the lists of its parts, and the pairs of a text are those of its
statements one after the other (`extract_eq`).
-/

namespace LogAudit.Sql

/-! ## Lists of pairs -/

/-- The pair of two operands that are compared: a column on the left with a constant on the right,
or else the other way round. -/
def Pair.ofComparison (left right : Expr) : List Pair :=
  match left.columnName?, right.literalText? with
  | some column, some value => of? (some column) (some value)
  | _, _ => of? right.columnName? left.literalText?

/-- The pairs of an operator itself, between two operands. -/
def Operator.pairs (left right : Expr) (op : Operator) : List Pair :=
  if op.isComparison then Pair.ofComparison left right else []

mutual

/-- The pairs of an expression. -/
def Expr.pairs : Expr → List Pair
  | .column _ => []
  | .literal _ => []
  | .binary op left right => op.pairs left right ++ (left.pairs ++ right.pairs)
  | .like subject pattern =>
    Pair.ofComparison subject pattern ++ (subject.pairs ++ pattern.pairs)
  | .between subject low high =>
    Pair.of? subject.columnName? low.literalText?
      ++ (Pair.of? subject.columnName? high.literalText? ++ (low.pairs ++ high.pairs))
  | .inList subject items => Expr.itemPairs subject.columnName? items
  | .inQuery subject inner => subject.pairs ++ inner.pairs
  | .existence inner => inner.pairs
  | .scalar inner => inner.pairs
  | .nested body => body.pairs
  | .unary body => body.pairs
  | .test body => body.pairs
  | .cast body => body.pairs
  | .collate body => body.pairs
  | .cases operand conditions results otherwise =>
    Expr.optionalPairs operand ++ (Expr.optionalPairs otherwise
      ++ (Expr.listPairs conditions ++ Expr.listPairs results))
  | .tuple items => Expr.listPairs items
  | .form _ => []

/-- The pairs of an expression that may be missing. -/
def Expr.optionalPairs : Option Expr → List Pair
  | none => []
  | some e => e.pairs

/-- The pairs of several expressions in order. -/
def Expr.listPairs : List Expr → List Pair
  | [] => []
  | e :: es => e.pairs ++ Expr.listPairs es

/-- The pairs of a list of candidates for a column: each candidate with the column, and the pairs in
it. -/
def Expr.itemPairs (column : Option String) : List Expr → List Pair
  | [] => []
  | e :: es => Pair.of? column e.literalText? ++ (e.pairs ++ Expr.itemPairs column es)

/-- The pairs of a query are those of its body. -/
def Query.pairs : Query → List Pair
  | .mk _ body => body.pairs

/-- The pairs of a body: those of the conditions of each selection. -/
def Body.pairs : Body → List Pair
  | .select _ _ selection having => Expr.optionalPairs selection ++ Expr.optionalPairs having
  | .query inner => inner.pairs
  | .setOperation left right => left.pairs ++ right.pairs
  | .values _ => []
  | .table => []

end

/-- The pairs of one row of values. -/
def rowPairs (columns : List String) (row : List Expr) : List Pair :=
  (columns.zip row).flatMap fun (column, value) => Pair.of? (some column) value.literalText?

/-- The pairs of rows, each of which must have a value for every column. -/
def rowsPairs (columns : List String) : List (List Expr) → Except ExtractError (List Pair)
  | [] => .ok []
  | row :: rows =>
    if row.length = columns.length then
      (rowsPairs columns rows).map (rowPairs columns row ++ ·)
    else .error (.rowLength columns.length row.length)

/-- The pairs of an assignment. -/
def assignmentPairs (assignment : Option String × Expr) : List Pair :=
  Pair.of? assignment.1 assignment.2.literalText? ++ assignment.2.pairs

/-- The pairs of a statement. -/
def Statement.pairs : Statement → Except ExtractError (List Pair)
  | .query q => .ok q.pairs
  | .update assignments selection =>
    .ok (assignments.flatMap assignmentPairs ++ Expr.optionalPairs selection)
  | .delete selection => .ok (Expr.optionalPairs selection)
  | .insert [] _ => .ok []
  | .insert _ none => .ok []
  | .insert (column :: columns) (some source) =>
    match source.body with
    | .values rows => rowsPairs (column :: columns) rows
    | _ => .error .unsupportedRows
  | .command => .ok []

/-- The pairs of statements in order, unless one of them has none that can be told. -/
def Statement.allPairs : List Statement → Except ExtractError (List Pair)
  | [] => .ok []
  | statement :: statements => do
    let first ← statement.pairs
    let others ← allPairs statements
    return first ++ others

/-! ## Collecting adds the list -/

namespace PairCollection

variable (out : PairCollection)

/-- No pairs change nothing. -/
@[simp] theorem merge_nil : out.merge ⟨[]⟩ = out := by
  rw [merge, List.append_nil]

/-- Pairs that are added one after the other are added together. -/
@[simp] theorem merge_merge (pairs pairs' : List Pair) :
    (out.merge ⟨pairs⟩).merge ⟨pairs'⟩ = out.merge ⟨pairs ++ pairs'⟩ := by
  simp only [merge, List.append_assoc]

/-- Nothing stands before the first pairs. -/
@[simp] theorem empty_merge (other : PairCollection) : empty.merge other = other := rfl

/-- A pair that is added is a list of one pair or none. -/
theorem add_eq (column value : Option String) :
    out.add column value = out.merge ⟨Pair.of? column value⟩ := rfl

/-- Two operands that are compared add their pair. -/
theorem addComparison_eq (left right : Expr) :
    out.addComparison left right = out.merge ⟨Pair.ofComparison left right⟩ := by
  unfold addComparison Pair.ofComparison
  cases left.columnName? <;> cases right.literalText? <;> rfl

/-- An operator adds its own pairs. -/
theorem addOperator_eq (op : Operator) (left right : Expr) :
    (if op.isComparison then out.addComparison left right else out) =
      out.merge ⟨op.pairs left right⟩ := by
  unfold Operator.pairs
  split
  · exact out.addComparison_eq left right
  · exact out.merge_nil.symm

end PairCollection

open PairCollection (add_eq addComparison_eq addOperator_eq)

mutual

/-- An expression adds its pairs. -/
theorem Expr.collect_eq (e : Expr) (out : PairCollection) :
    e.collect out = out.merge ⟨e.pairs⟩ := by
  cases e with
  | column | literal | form => simp [Expr.collect, Expr.pairs]
  | binary op left right =>
    simp [Expr.collect, Expr.pairs, addOperator_eq, left.collect_eq, right.collect_eq]
  | like subject pattern =>
    simp [Expr.collect, Expr.pairs, addComparison_eq, subject.collect_eq, pattern.collect_eq]
  | between subject low high =>
    simp [Expr.collect, Expr.pairs, add_eq, low.collect_eq, high.collect_eq]
  | inList subject items => rw [Expr.collect, Expr.pairs, Expr.collectItems_eq]
  | inQuery subject inner => simp [Expr.collect, Expr.pairs, subject.collect_eq, inner.collect_eq]
  | existence inner | scalar inner => rw [Expr.collect, Expr.pairs, inner.collect_eq]
  | nested body | unary body | test body | cast body | collate body =>
    rw [Expr.collect, Expr.pairs, body.collect_eq]
  | cases operand conditions results otherwise =>
    simp [Expr.collect, Expr.pairs, Expr.collectOption_eq operand, Expr.collectOption_eq otherwise,
      Expr.collectList_eq conditions, Expr.collectList_eq results]
  | tuple items => rw [Expr.collect, Expr.pairs, Expr.collectList_eq]

/-- An expression that may be missing adds its pairs. -/
theorem Expr.collectOption_eq (e : Option Expr) (out : PairCollection) :
    Expr.collectOption e out = out.merge ⟨Expr.optionalPairs e⟩ := by
  cases e with
  | none => simp [Expr.collectOption, Expr.optionalPairs]
  | some e => rw [Expr.collectOption, Expr.optionalPairs, e.collect_eq]

/-- Several expressions add their pairs. -/
theorem Expr.collectList_eq (es : List Expr) (out : PairCollection) :
    Expr.collectList es out = out.merge ⟨Expr.listPairs es⟩ := by
  cases es with
  | nil => simp [Expr.collectList, Expr.listPairs]
  | cons e es => simp [Expr.collectList, Expr.listPairs, e.collect_eq, Expr.collectList_eq es]

/-- Candidates add their pairs. -/
theorem Expr.collectItems_eq (column : Option String) (es : List Expr) (out : PairCollection) :
    Expr.collectItems column es out = out.merge ⟨Expr.itemPairs column es⟩ := by
  cases es with
  | nil => simp [Expr.collectItems, Expr.itemPairs]
  | cons e es =>
    simp [Expr.collectItems, Expr.itemPairs, add_eq, e.collect_eq, Expr.collectItems_eq column es]

/-- A query adds its pairs. -/
theorem Query.collect_eq (q : Query) (out : PairCollection) :
    q.collect out = out.merge ⟨q.pairs⟩ := by
  cases q with
  | mk named body => rw [Query.collect, Query.pairs, body.collect_eq]

/-- A body adds its pairs. -/
theorem Body.collect_eq (b : Body) (out : PairCollection) :
    b.collect out = out.merge ⟨b.pairs⟩ := by
  cases b with
  | select projection sources selection having =>
    simp [Body.collect, Body.pairs, Expr.collectOption_eq selection, Expr.collectOption_eq having]
  | query inner => rw [Body.collect, Body.pairs, inner.collect_eq]
  | setOperation left right =>
    simp [Body.collect, Body.pairs, left.collect_eq, right.collect_eq]
  | values | table => simp [Body.collect, Body.pairs]

end

/-! ## Statements -/

/-- A row adds its pairs. -/
theorem collectRow_eq (columns : List String) (row : List Expr) (out : PairCollection) :
    collectRow columns row out = out.merge ⟨rowPairs columns row⟩ := by
  unfold collectRow rowPairs
  induction columns.zip row generalizing out with
  | nil => simp
  | cons cell cells ih =>
    rw [List.foldl_cons, ih, List.flatMap_cons]
    exact out.merge_merge _ _

/-- Rows add their pairs, or have their error. -/
theorem collectRows_eq (columns : List String) (rows : List (List Expr)) (out : PairCollection) :
    collectRows columns rows out =
      (rowsPairs columns rows).map fun pairs => out.merge ⟨pairs⟩ := by
  induction rows generalizing out with
  | nil => simp [collectRows, rowsPairs, Except.map]
  | cons row rows ih =>
    rw [collectRows, rowsPairs]
    split
    · rw [ih, collectRow_eq]
      cases rowsPairs columns rows with
      | error e => rfl
      | ok pairs => exact congrArg Except.ok (out.merge_merge _ _)
    · rfl

/-- Assignments add their pairs. -/
theorem foldl_collectAssignment (assignments : List (Option String × Expr)) (out : PairCollection) :
    assignments.foldl collectAssignment out =
      out.merge ⟨assignments.flatMap assignmentPairs⟩ := by
  induction assignments generalizing out with
  | nil => simp
  | cons a assignments ih =>
    rw [List.foldl_cons, ih, collectAssignment, Expr.collect_eq, add_eq, List.flatMap_cons,
      PairCollection.merge_merge, PairCollection.merge_merge, assignmentPairs, List.append_assoc]

namespace Statement

/-- A statement collects its pairs. -/
theorem collect_eq (s : Statement) : s.collect = s.pairs.map PairCollection.mk := by
  cases s with
  | query q => exact congrArg Except.ok (q.collect_eq .empty)
  | update assignments selection =>
    rw [collect, pairs, foldl_collectAssignment, Expr.collectOption_eq, PairCollection.merge_merge]
    rfl
  | delete selection => exact congrArg Except.ok (Expr.collectOption_eq selection .empty)
  | insert columns source =>
    rcases columns with _ | ⟨column, columns⟩
    · rfl
    · rcases source with _ | ⟨named, body⟩
      · rfl
      · cases body with
        | values rows => exact collectRows_eq (column :: columns) rows .empty
        | _ => rfl
  | command => rfl

/-- Statements add their pairs, or have the error of the first that has one. -/
theorem collectAll_eq (statements : List Statement) (out : PairCollection) :
    collectAll statements out = (allPairs statements).map fun pairs => out.merge ⟨pairs⟩ := by
  induction statements generalizing out with
  | nil => exact congrArg Except.ok out.merge_nil.symm
  | cons s statements ih =>
    rw [collectAll, allPairs, collect_eq]
    cases s.pairs with
    | error e => rfl
    | ok first =>
      change collectAll statements (out.merge ⟨first⟩) = _
      rw [ih]
      cases allPairs statements with
      | error e => rfl
      | ok others => exact congrArg Except.ok (out.merge_merge first others)

end Statement

/-- A text that is read as statements has the pairs of these, or their error. -/
theorem extract_eq {read : StatementReader} {sql : String} {statements : List Statement}
    (hread : read sql = .ok statements) :
    extract read sql = (Statement.allPairs statements).map PairCollection.mk := by
  rw [extract, hread]
  exact Statement.collectAll_eq statements .empty

/-- A text is read as statements if its error, if it has one, is not one of the grammar. -/
theorem exists_read {read : StatementReader} {sql : String}
    (h : ∀ text, extract read sql ≠ .error (.syntaxError text)) :
    ∃ statements, read sql = .ok statements := by
  cases hread : read sql with
  | error text => exact absurd (by rw [extract, hread]) (h text)
  | ok statements => exact ⟨statements, rfl⟩

end LogAudit.Sql
