import LogAudit.Proofs.Sql.Insertions
import Mathlib.Data.Multiset.Basic

/-!
# Parts in their places

A frame is a tree with one of its parts left out, and a path leads from a part up through frames to
a statement. What a frame lets the outside see of a part is its face: the column or the constant
that it is at its top, the constants of its rows. Parts with the same face and the same pairs make
trees with the same face and the same pairs (`Frame.sameFace`, `Path.sameContents`). A frame that is
looked into has the pairs of its part side by side among its own (`Frame.contents_eq`); one that is
not has the same pairs whatever the part is, as long as its face is the same
(`Frame.contents_congr`).
-/

namespace LogAudit.Sql

/-! ## Frames and paths -/

/-- What a tree is a tree of. -/
inductive Kind where
  | expr
  | query
  | body
  | statement

/-- The trees of a kind. -/
abbrev Kind.Tree : Kind → Type
  | expr => Expr
  | query => Query
  | body => Body
  | statement => Statement

/-- A tree with one part left out, by the kinds of the part and of the tree. -/
inductive Frame : Kind → Kind → Type where
  | binaryLeft (op : Operator) (right : Expr) : Frame .expr .expr
  | binaryRight (op : Operator) (left : Expr) : Frame .expr .expr
  | likeSubject (pattern : Expr) : Frame .expr .expr
  | likePattern (subject : Expr) : Frame .expr .expr
  | betweenSubject (low high : Expr) : Frame .expr .expr
  | betweenLow (subject high : Expr) : Frame .expr .expr
  | betweenHigh (subject low : Expr) : Frame .expr .expr
  | listSubject (items : List Expr) : Frame .expr .expr
  | listItem (subject : Expr) (before after : List Expr) : Frame .expr .expr
  /-- The subject before `IN` and a query. -/
  | querySubject (query : Query) : Frame .expr .expr
  /-- The query after `IN`. -/
  | queryChoices (subject : Expr) : Frame .query .expr
  | existence : Frame .query .expr
  | scalar : Frame .query .expr
  | nested : Frame .expr .expr
  | unary : Frame .expr .expr
  | test : Frame .expr .expr
  | cast : Frame .expr .expr
  | collate : Frame .expr .expr
  | caseOperand (conditions results : List Expr) (otherwise : Option Expr) : Frame .expr .expr
  | caseCondition (operand : Option Expr) (before after results : List Expr)
      (otherwise : Option Expr) : Frame .expr .expr
  | caseResult (operand : Option Expr) (conditions before after : List Expr)
      (otherwise : Option Expr) : Frame .expr .expr
  | caseOtherwise (operand : Option Expr) (conditions results : List Expr) : Frame .expr .expr
  | tupleItem (before after : List Expr) : Frame .expr .expr
  /-- An operand of a function or of another form. -/
  | formOperand (before after : List Expr) : Frame .expr .expr
  /-- A query that `WITH` names. -/
  | queryNamed (before after : List Query) (body : Body) : Frame .query .query
  | queryBody (named : List Query) : Frame .body .query
  | selectItem (before after : List Expr) (sources : List Query) (selection having : Option Expr) :
      Frame .expr .body
  | selectSource (projection : List Expr) (before after : List Query)
      (selection having : Option Expr) :
      Frame .query .body
  | selectWhere (projection : List Expr) (sources : List Query) (having : Option Expr) :
      Frame .expr .body
  | selectHaving (projection : List Expr) (sources : List Query) (selection : Option Expr) :
      Frame .expr .body
  /-- A query in parentheses. -/
  | nestedQuery : Frame .query .body
  | operationLeft (right : Body) : Frame .body .body
  | operationRight (left : Body) : Frame .body .body
  | rowValue (rowsBefore : List (List Expr)) (before after : List Expr)
      (rowsAfter : List (List Expr)) : Frame .expr .body
  | queryStatement : Frame .query .statement
  | assigned (before : List (Option String × Expr)) (column : Option String)
      (after : List (Option String × Expr)) (selection : Option Expr) : Frame .expr .statement
  | updateSelection (assignments : List (Option String × Expr)) : Frame .expr .statement
  | deleteSelection : Frame .expr .statement
  | insertSource (columns : List String) : Frame .query .statement

/-- The way from a part of a tree to the tree, from the inside out. -/
inductive Path : Kind → Kind → Type where
  | here {k : Kind} : Path k k
  | up {i j k : Kind} (frame : Frame i j) (path : Path j k) : Path i k

/-- The tree with the part that was left out. -/
def Frame.plug : {j k : Kind} → Frame j k → j.Tree → k.Tree
  | _, _, .binaryLeft op right, e => Expr.binary op e right
  | _, _, .binaryRight op left, e => Expr.binary op left e
  | _, _, .likeSubject pattern, e => Expr.like e pattern
  | _, _, .likePattern subject, e => Expr.like subject e
  | _, _, .betweenSubject low high, e => Expr.between e low high
  | _, _, .betweenLow subject high, e => Expr.between subject e high
  | _, _, .betweenHigh subject low, e => Expr.between subject low e
  | _, _, .listSubject items, e => Expr.inList e items
  | _, _, .listItem subject before after, e => Expr.inList subject (before ++ e :: after)
  | _, _, .querySubject query, e => Expr.inQuery e query
  | _, _, .queryChoices subject, q => Expr.inQuery subject q
  | _, _, .existence, q => Expr.existence q
  | _, _, .scalar, q => Expr.scalar q
  | _, _, .nested, e => Expr.nested e
  | _, _, .unary, e => Expr.unary e
  | _, _, .test, e => Expr.test e
  | _, _, .cast, e => Expr.cast e
  | _, _, .collate, e => Expr.collate e
  | _, _, .caseOperand conditions results otherwise, e =>
    Expr.cases (some e) conditions results otherwise
  | _, _, .caseCondition operand before after results otherwise, e =>
    Expr.cases operand (before ++ e :: after) results otherwise
  | _, _, .caseResult operand conditions before after otherwise, e =>
    Expr.cases operand conditions (before ++ e :: after) otherwise
  | _, _, .caseOtherwise operand conditions results, e =>
    Expr.cases operand conditions results (some e)
  | _, _, .tupleItem before after, e => Expr.tuple (before ++ e :: after)
  | _, _, .formOperand before after, e => Expr.form (before ++ e :: after)
  | _, _, .queryNamed before after body, q => Query.mk (before ++ q :: after) body
  | _, _, .queryBody named, b => Query.mk named b
  | _, _, .selectItem before after sources selection having, e =>
    Body.select (before ++ e :: after) sources selection having
  | _, _, .selectSource projection before after selection having, q =>
    Body.select projection (before ++ q :: after) selection having
  | _, _, .selectWhere projection sources having, e =>
    Body.select projection sources (some e) having
  | _, _, .selectHaving projection sources selection, e =>
    Body.select projection sources selection (some e)
  | _, _, .nestedQuery, q => Body.query q
  | _, _, .operationLeft right, b => Body.setOperation b right
  | _, _, .operationRight left, b => Body.setOperation left b
  | _, _, .rowValue rowsBefore before after rowsAfter, e =>
    Body.values (rowsBefore ++ (before ++ e :: after) :: rowsAfter)
  | _, _, .queryStatement, q => Statement.query q
  | _, _, .assigned before column after selection, e =>
    Statement.update (before ++ (column, e) :: after) selection
  | _, _, .updateSelection assignments, e => Statement.update assignments (some e)
  | _, _, .deleteSelection, e => Statement.delete (some e)
  | _, _, .insertSource columns, q => Statement.insert columns (some q)

/-- The tree with the part at the beginning of the path. -/
def Path.plug : {j k : Kind} → Path j k → j.Tree → k.Tree
  | _, _, .here, t => t
  | _, _, .up frame path, t => path.plug (frame.plug t)

/-- The part is looked into: it is neither the subject of a range or a list nor an operand of a
function, and it does not stand around the conditions of a selection or in an insertion. -/
def Frame.LookedInto {j k : Kind} : Frame j k → Prop
  | .betweenSubject _ _ => False
  | .listSubject _ => False
  | .formOperand _ _ => False
  | .queryNamed _ _ _ => False
  | .selectItem _ _ _ _ _ => False
  | .selectSource _ _ _ _ _ => False
  | .rowValue _ _ _ _ => False
  | .insertSource _ => False
  | _ => True

/-- Every part on the way is looked into. -/
def Path.LookedInto : {j k : Kind} → Path j k → Prop
  | _, _, .here => True
  | _, _, .up frame path => frame.LookedInto ∧ path.LookedInto

/-! ## Faces and contents -/

/-- The constants in the rows of a body that is made of rows. -/
def Body.rowTexts? : Body → Option (List (List (Option String)))
  | .values rows => some (rows.map fun row => row.map Expr.literalText?)
  | _ => none

/-- The constants in the rows of a query that is made of rows. -/
def Query.rowTexts? (q : Query) : Option (List (List (Option String))) := q.body.rowTexts?

/-- From outside, two trees look alike at their tops. -/
def Kind.SameFace : (k : Kind) → k.Tree → k.Tree → Prop
  | expr, e, e' => e.columnName? = e'.columnName? ∧ e.literalText? = e'.literalText?
  | query, q, q' => q.rowTexts? = q'.rowTexts?
  | body, b, b' => b.rowTexts? = b'.rowTexts?
  | statement, _, _ => True

/-- A tree looks like itself. -/
theorem Kind.SameFace.refl (k : Kind) (t : k.Tree) : k.SameFace t t := by
  cases k
  · exact ⟨rfl, rfl⟩
  · exact rfl
  · exact rfl
  · exact trivial

/-- The pairs of a tree, if they can be told. -/
def Kind.contents : (k : Kind) → k.Tree → Except ExtractError (List Pair)
  | expr, e => .ok e.pairs
  | query, q => .ok q.pairs
  | body, b => .ok b.pairs
  | statement, s => s.pairs

/-- Two trees have the same pairs in any order, or the same error. -/
def Kind.SameContents (k : Kind) (t t' : k.Tree) : Prop :=
  (k.contents t).map Multiset.ofList = (k.contents t').map Multiset.ofList

/-- Expressions one after the other have their pairs one after the other. -/
theorem Expr.listPairs_append (items items' : List Expr) :
    Expr.listPairs (items ++ items') = Expr.listPairs items ++ Expr.listPairs items' := by
  rw [listPairs_eq, listPairs_eq, listPairs_eq, List.map_append, List.flatMap_append]

/-- Candidates one after the other have their pairs one after the other. -/
theorem Expr.itemPairs_append (column : Option String) (items items' : List Expr) :
    Expr.itemPairs column (items ++ items') =
      Expr.itemPairs column items ++ Expr.itemPairs column items' := by
  induction items with
  | nil => rw [List.nil_append, itemPairs, List.nil_append]
  | cons e items ih =>
    rw [List.cons_append, itemPairs, itemPairs, ih, List.append_assoc, List.append_assoc]

/-- The pair of a comparison is told by the faces of its operands. -/
theorem Pair.ofComparison_congr {left left' right right' : Expr}
    (hleft : Kind.expr.SameFace left left') (hright : Kind.expr.SameFace right right') :
    ofComparison left right = ofComparison left' right' := by
  simp only [ofComparison, hleft.1, hleft.2, hright.1, hright.2]

/-- So are the pairs of an operator. -/
theorem Operator.pairs_congr (op : Operator) {left left' right right' : Expr}
    (hleft : Kind.expr.SameFace left left') (hright : Kind.expr.SameFace right right') :
    op.pairs left right = op.pairs left' right' := by
  rw [pairs, pairs, Pair.ofComparison_congr hleft hright]

/-- The pairs of rows are told by the constants in them. -/
theorem rowsPairs_congr {columns : List String} {rows rows' : List (List Expr)}
    (h : (rows.map fun row => row.map Expr.literalText?) =
      rows'.map fun row => row.map Expr.literalText?) :
    rowsPairs columns rows = rowsPairs columns rows' := by
  induction rows generalizing rows' with
  | nil =>
    obtain rfl := List.map_eq_nil_iff.1 h.symm
    rfl
  | cons row rows ih =>
    cases rows' with
    | nil => exact absurd h (by simp)
    | cons row' rows' =>
      obtain ⟨hrow, hrows⟩ := List.cons.inj h
      dsimp only at hrow
      have hlength : row.length = row'.length := by simpa using congrArg List.length hrow
      have htexts : ∀ row : List Expr, rowPairs columns row =
          (columns.zip (row.map Expr.literalText?)).flatMap fun a => Pair.of? (some a.1) a.2 := by
        intro row
        rw [List.zip_map_right, List.flatMap_map]
        rfl
      rw [rowsPairs, rowsPairs, ih hrows, hlength, htexts, htexts, hrow]

/-- The constants in the rows of a query are those of its rows. -/
theorem Query.rowTexts?_eq (q : Query) :
    q.rowTexts? = q.rows?.map fun rows => rows.map fun row => row.map Expr.literalText? := by
  obtain ⟨named, body⟩ := q
  cases body <;> rfl

/-- The pairs of an insertion are told by the constants in its rows. -/
theorem Statement.pairs_insert_congr (columns : List String) {q q' : Query}
    (h : q.rowTexts? = q'.rowTexts?) :
    (Statement.insert columns (some q)).pairs = (Statement.insert columns (some q')).pairs := by
  cases columns with
  | nil => rfl
  | cons column columns =>
    rw [Statement.pairs_insert, Statement.pairs_insert]
    rw [Query.rowTexts?_eq, Query.rowTexts?_eq] at h
    cases hrows : q.rows? with
    | none =>
      rw [hrows, Option.map_none, eq_comm, Option.map_eq_none_iff] at h
      rw [h]
    | some rows =>
      rw [hrows, Option.map_some, eq_comm, Option.map_eq_some_iff] at h
      obtain ⟨rows', hrows', htexts⟩ := h
      rw [hrows']
      exact rowsPairs_congr htexts.symm

namespace Frame

variable {j k : Kind} {t t' : j.Tree}

/-- A frame shows the same of itself whatever shows the same in it. -/
theorem sameFace (frame : Frame j k) (h : j.SameFace t t') :
    k.SameFace (frame.plug t) (frame.plug t') := by
  cases frame with
  | queryBody named => exact h
  | rowValue rowsBefore before after rowsAfter =>
    simp only [Kind.SameFace, plug, Body.rowTexts?, List.map_append, List.map_cons, h.2]
  | _ =>
    simp [Kind.SameFace, plug, Expr.columnName?, Expr.literalText?, Query.rowTexts?, Query.body,
      Body.rowTexts?]

/-- What a frame that is looked into has before and after the pairs of its part. -/
def around : {j k : Kind} → Frame j k → j.Tree → List Pair × List Pair
  | _, _, .binaryLeft op right, e => (op.pairs e right, right.pairs)
  | _, _, .binaryRight op left, e => (op.pairs left e ++ left.pairs, [])
  | _, _, .likeSubject pattern, e => (Pair.ofComparison e pattern, pattern.pairs)
  | _, _, .likePattern subject, e => (Pair.ofComparison subject e ++ subject.pairs, [])
  | _, _, .betweenLow subject high, e =>
    (Pair.of? subject.columnName? e.literalText? ++ Pair.of? subject.columnName? high.literalText?,
      high.pairs)
  | _, _, .betweenHigh subject low, e =>
    (Pair.of? subject.columnName? low.literalText? ++ Pair.of? subject.columnName? e.literalText?
      ++ low.pairs, [])
  | _, _, .listItem subject before after, e =>
    (Expr.itemPairs subject.columnName? before ++ Pair.of? subject.columnName? e.literalText?,
      Expr.itemPairs subject.columnName? after)
  | _, _, .querySubject query, _ => ([], query.pairs)
  | _, _, .queryChoices subject, _ => (subject.pairs, [])
  | _, _, .caseOperand conditions results otherwise, _ =>
    ([], Expr.optionalPairs otherwise ++ Expr.listPairs conditions ++ Expr.listPairs results)
  | _, _, .caseCondition operand before after results otherwise, _ =>
    (Expr.optionalPairs operand ++ Expr.optionalPairs otherwise ++ Expr.listPairs before,
      Expr.listPairs after ++ Expr.listPairs results)
  | _, _, .caseResult operand conditions before after otherwise, _ =>
    (Expr.optionalPairs operand ++ Expr.optionalPairs otherwise ++ Expr.listPairs conditions
      ++ Expr.listPairs before, Expr.listPairs after)
  | _, _, .caseOtherwise operand conditions results, _ =>
    (Expr.optionalPairs operand, Expr.listPairs conditions ++ Expr.listPairs results)
  | _, _, .tupleItem before after, _ => (Expr.listPairs before, Expr.listPairs after)
  | _, _, .selectWhere _ _ having, _ => ([], Expr.optionalPairs having)
  | _, _, .selectHaving _ _ selection, _ => (Expr.optionalPairs selection, [])
  | _, _, .operationLeft right, _ => ([], right.pairs)
  | _, _, .operationRight left, _ => (left.pairs, [])
  | _, _, .assigned before column after selection, e =>
    (before.flatMap assignmentPairs ++ Pair.of? column e.literalText?,
      after.flatMap assignmentPairs ++ Expr.optionalPairs selection)
  | _, _, .updateSelection assignments, _ => (assignments.flatMap assignmentPairs, [])
  | _, _, _, _ => ([], [])

/-- What a frame has around a part is told by the face of the part. -/
theorem around_congr (frame : Frame j k) (h : j.SameFace t t') :
    frame.around t = frame.around t' := by
  cases frame with
  | binaryLeft op right => simp only [around, op.pairs_congr h ⟨rfl, rfl⟩]
  | binaryRight op left => simp only [around, op.pairs_congr ⟨rfl, rfl⟩ h]
  | likeSubject pattern => simp only [around, Pair.ofComparison_congr h ⟨rfl, rfl⟩]
  | likePattern subject => simp only [around, Pair.ofComparison_congr ⟨rfl, rfl⟩ h]
  | betweenLow | betweenHigh | listItem | assigned => simp only [around, h.2]
  | _ => rfl

/-- A frame that is looked into has the pairs of its part side by side, between pairs of its own. -/
theorem contents_eq (frame : Frame j k) (h : frame.LookedInto) {pairs : List Pair}
    (hpairs : j.contents t = .ok pairs) :
    k.contents (frame.plug t) = .ok ((frame.around t).1 ++ (pairs ++ (frame.around t).2)) := by
  cases frame with
  | betweenSubject | listSubject | formOperand | queryNamed | selectItem | selectSource | rowValue
  | insertSource => exact absurd h id
  | _ =>
    obtain rfl := Except.ok.inj hpairs
    simp [plug, around, Kind.contents, Expr.pairs, Expr.optionalPairs, Expr.listPairs_append,
      Expr.listPairs, Expr.itemPairs_append, Expr.itemPairs, Query.pairs, Body.pairs,
      Statement.pairs, assignmentPairs]

/-- A frame that is not looked into has its pairs by the face of its part alone. -/
theorem contents_congr (frame : Frame j k) (h : ¬ frame.LookedInto) (hface : j.SameFace t t') :
    k.contents (frame.plug t) = k.contents (frame.plug t') := by
  cases frame with
  | betweenSubject low high => simp [plug, Kind.contents, Expr.pairs, hface.1]
  | listSubject items => simp [plug, Kind.contents, Expr.pairs, hface.1]
  | formOperand before after => simp [plug, Kind.contents, Expr.pairs]
  | queryNamed before after body => simp [plug, Kind.contents, Query.pairs]
  | selectItem before after sources selection having => simp [plug, Kind.contents, Body.pairs]
  | selectSource projection before after selection having =>
    simp [plug, Kind.contents, Body.pairs]
  | rowValue rowsBefore before after rowsAfter => simp [plug, Kind.contents, Body.pairs]
  | insertSource columns => exact Statement.pairs_insert_congr columns hface
  | _ => exact absurd trivial h

/-- The pairs of a part in a frame can be told. -/
theorem exists_contents (frame : Frame j k) (t : j.Tree) : ∃ pairs, j.contents t = .ok pairs := by
  cases frame <;> exact ⟨_, rfl⟩

/-- Parts with the same face and the same pairs make trees with the same pairs. -/
theorem sameContents (frame : Frame j k) (hface : j.SameFace t t') (h : j.SameContents t t') :
    k.SameContents (frame.plug t) (frame.plug t') := by
  by_cases hlooked : frame.LookedInto
  · obtain ⟨pairs, hpairs⟩ := frame.exists_contents t
    obtain ⟨pairs', hpairs'⟩ := frame.exists_contents t'
    have hperm : pairs.Perm pairs' := by
      rw [Kind.SameContents, hpairs, hpairs'] at h
      exact Multiset.coe_eq_coe.1 (Except.ok.inj h)
    rw [Kind.SameContents, frame.contents_eq hlooked hpairs, frame.contents_eq hlooked hpairs',
      frame.around_congr hface]
    exact congrArg Except.ok (Multiset.coe_eq_coe.2 ((hperm.append_right _).append_left _))
  · rw [Kind.SameContents, frame.contents_congr hlooked hface]

end Frame

namespace Path

variable {j k : Kind} {t t' : j.Tree}

/-- Parts with the same face and the same pairs make trees with the same pairs, at any depth. -/
theorem sameContents (path : Path j k) (hface : j.SameFace t t') (h : j.SameContents t t') :
    k.SameContents (path.plug t) (path.plug t') := by
  induction path with
  | here => exact h
  | up frame path ih => exact ih (frame.sameFace hface) (frame.sameContents hface h)

/-- What is looked into at every step of the way has its pairs side by side in the tree. -/
theorem infix_contents (path : Path j k) (h : path.LookedInto) {pairs : List Pair}
    (hpairs : j.contents t = .ok pairs) :
    ∃ all, k.contents (path.plug t) = .ok all ∧ pairs <:+: all := by
  induction path generalizing pairs with
  | here => exact ⟨pairs, hpairs, List.infix_rfl⟩
  | up frame path ih =>
    obtain ⟨all, hall, hwithin⟩ := ih h.2 (frame.contents_eq h.1 hpairs)
    exact ⟨all, hall, List.IsInfix.trans ⟨_, _, List.append_assoc _ _ _⟩ hwithin⟩

/-- What is not looked into somewhere on the way does not matter to the pairs of the tree. -/
theorem sameContents_of_face (path : Path j k) (h : ¬ path.LookedInto) (hface : j.SameFace t t') :
    k.SameContents (path.plug t) (path.plug t') := by
  induction path with
  | here => exact absurd trivial h
  | up frame path ih =>
    by_cases hlooked : frame.LookedInto
    · exact ih (fun hrest => h ⟨hlooked, hrest⟩) (frame.sameFace hface)
    · refine path.sameContents (frame.sameFace hface) ?_
      rw [Kind.SameContents, frame.contents_congr hlooked hface]

end Path

end LogAudit.Sql
