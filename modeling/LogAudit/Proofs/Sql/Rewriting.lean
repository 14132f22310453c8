import LogAudit.Proofs.Sql.Contexts
import Mathlib.Data.Multiset.AddSub
import Mathlib.Logic.Relation

/-!
# Conditions written in other ways

A comparison may be turned round, an expression may be put in parentheses or negated, and a list or
a range of values of a column may be spread into comparisons. Each of these keeps the face and the
pairs of the expression (`Expr.Rewrites.sameFace`, `Expr.Rewrites.sameContents`), hence the pairs of
the statements around it, in any number of steps at any depth (`extract_rewritten`).
-/

namespace LogAudit.Sql

/-! ## Rewriting -/

/-- An expression, or that a column equals one of some values: `e OR c = v₁ OR … OR c = vₙ`, taken
from the left. -/
def Expr.orAny (column : Expr) : Expr → List Expr → Expr :=
  List.foldl fun e value => .binary .or e (.binary .equal column value)

/-- A way to write an expression that does not change what it relates. -/
inductive Expr.Rewrites : Expr → Expr → Prop where
  /-- The operands of a comparison change places. -/
  | exchange {op : Operator} (hop : op ∈ Operator.comparisons) (left right : Expr) :
      Rewrites (.binary op left right) (.binary op right left)
  | parenthesize {e : Expr} (hcolumn : ∀ name, ¬ e.Names name) (hvalue : ∀ text, ¬ e.Denotes text) :
      Rewrites e (.nested e)
  | negate {e : Expr} (hcolumn : ∀ name, ¬ e.Names name) (hvalue : ∀ text, ¬ e.Denotes text) :
      Rewrites e (.unary e)
  /-- A column that is one of some values equals the first of them, or the second, or a later
  one. -/
  | spreadList (path : List String) (first : Expr) (others : List Expr) :
      Rewrites (.inList (.column path) (first :: others))
        (Expr.orAny (.column path) (.binary .equal (.column path) first) others)
  /-- A column that is between two bounds is at least the one and at most the other. -/
  | spreadRange (path : List String) (low high : Expr) :
      Rewrites (.between (.column path) low high)
        (.binary .and (.binary .greaterOrEqual (.column path) low)
          (.binary .lessOrEqual (.column path) high))

/-- One expression anywhere in a statement is written in another way. -/
inductive Statement.Rewrites : Statement → Statement → Prop where
  | inside (path : Path .expr .statement) {e e' : Expr} (h : e.Rewrites e') :
      Rewrites (path.plug e) (path.plug e')

/-- The pairs of a collection in any order. -/
def PairCollection.contents (found : PairCollection) : Multiset Pair := found.pairs

/-! ## The pairs of comparisons -/

/-- An expression without a column name is no column. -/
theorem Expr.columnName?_eq_none_iff {e : Expr} :
    e.columnName? = none ↔ ∀ name, ¬ e.Names name := by
  simp only [Option.eq_none_iff_forall_ne_some, ne_eq, columnName?_eq_some_iff]

/-- An expression without a text is no constant. -/
theorem Expr.literalText?_eq_none_iff {e : Expr} :
    e.literalText? = none ↔ ∀ text, ¬ e.Denotes text := by
  simp only [Option.eq_none_iff_forall_ne_some, ne_eq, literalText?_eq_some_iff]

/-- An expression has no name or no text. -/
theorem Expr.columnName?_or_literalText? (e : Expr) :
    e.columnName? = none ∨ e.literalText? = none := by
  cases e with
  | column path => exact .inr rfl
  | _ => exact .inl rfl

/-- Either operand of a comparison may be the column. As none is a column and a constant at once,
the order in which they are tried does not matter. -/
theorem Pair.ofComparison_eq_append (left right : Expr) :
    ofComparison left right =
      of? left.columnName? right.literalText? ++ of? right.columnName? left.literalText? := by
  have hleft := left.columnName?_or_literalText?
  unfold ofComparison
  split
  · rename_i column value hcolumn hvalue
    have hnone : left.literalText? = none := hleft.resolve_left (by simp [hcolumn])
    rw [hcolumn, hvalue, hnone]
    simp [of?]
  · rename_i hnot
    have hnone : of? left.columnName? right.literalText? = [] := by
      unfold of?
      split
      · rename_i column value hcolumn hvalue
        exact (hnot column value hcolumn hvalue).elim
      · rfl
    rw [hnone, List.nil_append]

/-- The operands of a comparison may change places. -/
theorem Pair.ofComparison_perm (left right : Expr) :
    (ofComparison left right).Perm (ofComparison right left) := by
  rw [ofComparison_eq_append, ofComparison_eq_append right left]
  exact List.perm_append_comm

/-- Operands that are compared in either order have the same pair. -/
theorem Operator.pairs_perm (op : Operator) (left right : Expr) :
    (op.pairs left right).Perm (op.pairs right left) := by
  unfold pairs
  split
  · exact Pair.ofComparison_perm left right
  · exact .nil

/-- A column that is compared with a value is paired with it. -/
theorem Expr.pairs_compared {op : Operator} (hop : op ∈ Operator.comparisons) (path : List String)
    (value : Expr) : (Expr.binary op (.column path) value).pairs =
      Pair.of? (Expr.column path).columnName? value.literalText? ++ value.pairs := by
  rw [pairs, Operator.pairs, if_pos (Operator.isComparison_iff.2 hop), Pair.ofComparison_eq_append]
  simp [pairs, literalText?, Pair.of?]

/-- Expressions that are joined by an operator which compares nothing have their own pairs. -/
theorem Expr.pairs_joined {op : Operator} (hop : op ∉ Operator.comparisons) (left right : Expr) :
    (Expr.binary op left right).pairs = left.pairs ++ right.pairs := by
  rw [pairs, Operator.pairs, if_neg (mt Operator.isComparison_iff.1 hop), List.nil_append]

/-- Values joined one by one have the pairs of a list of candidates. -/
theorem Expr.pairs_orAny (path : List String) (e : Expr) (values : List Expr) :
    (orAny (.column path) e values).pairs =
      e.pairs ++ itemPairs (Expr.column path).columnName? values := by
  induction values generalizing e with
  | nil => simp [orAny, itemPairs]
  | cons value values ih =>
    have hstep : orAny (.column path) e (value :: values) = orAny (.column path)
        (.binary .or e (.binary .equal (.column path) value)) values := rfl
    rw [hstep, ih, pairs_joined (by decide), pairs_compared (by decide), itemPairs,
      List.append_assoc, List.append_assoc]

/-- Joined comparisons are neither a column nor a constant. -/
theorem Expr.face_orAny (column : Expr) {e : Expr} (hname : e.columnName? = none)
    (htext : e.literalText? = none) (values : List Expr) :
    (orAny column e values).columnName? = none ∧ (orAny column e values).literalText? = none := by
  induction values generalizing e with
  | nil => exact ⟨hname, htext⟩
  | cons value values ih => exact ih rfl rfl

/-! ## What rewriting keeps -/

namespace Expr.Rewrites

variable {e e' : Expr}

/-- Another way to write an expression looks the same from outside. -/
theorem sameFace (h : e.Rewrites e') : Kind.expr.SameFace e e' := by
  cases h with
  | exchange hop left right => exact ⟨rfl, rfl⟩
  | parenthesize hcolumn hvalue | negate hcolumn hvalue =>
    exact ⟨columnName?_eq_none_iff.2 hcolumn, literalText?_eq_none_iff.2 hvalue⟩
  | spreadList path first others =>
    obtain ⟨hname, htext⟩ := face_orAny (.column path)
      (e := .binary .equal (.column path) first) rfl rfl others
    exact ⟨hname.symm, htext.symm⟩
  | spreadRange path low high => exact ⟨rfl, rfl⟩

/-- Another way to write an expression has the same pairs. -/
theorem pairs_perm (h : e.Rewrites e') : e.pairs.Perm e'.pairs := by
  cases h with
  | @exchange op hop left right =>
    rw [pairs, pairs]
    exact (op.pairs_perm left right).append List.perm_append_comm
  | parenthesize hcolumn hvalue | negate hcolumn hvalue =>
    rw [pairs]
  | spreadList path first others =>
    rw [pairs_orAny, pairs_compared (by decide), pairs, itemPairs, List.append_assoc]
  | spreadRange path low high =>
    rw [pairs_joined (by decide), pairs_compared (by decide), pairs_compared (by decide), pairs,
      List.append_assoc]
    refine .append_left _ ?_
    rw [← List.append_assoc, ← List.append_assoc]
    exact .append_right _ List.perm_append_comm

/-- Another way to write an expression has the same contents. -/
theorem sameContents (h : e.Rewrites e') : Kind.expr.SameContents e e' :=
  congrArg Except.ok (Multiset.coe_eq_coe.2 h.pairs_perm)

end Expr.Rewrites

/-- An expression that is written in another way anywhere in a statement keeps its contents. -/
theorem Statement.Rewrites.sameContents {s s' : Statement} (h : s.Rewrites s') :
    Kind.statement.SameContents s s' := by
  obtain ⟨path, h⟩ := h
  exact path.sameContents h.sameFace h.sameContents

/-- Any number of steps forth and back keep the pairs. -/
theorem Statement.sameContents_of_eqvGen {s s' : Statement} (h : Relation.EqvGen Rewrites s s') :
    Kind.statement.SameContents s s' := by
  induction h with
  | rel s s' h => exact h.sameContents
  | refl s => exact rfl
  | symm s s' _ ih => exact ih.symm
  | trans s s' s'' _ _ ih ih' => exact ih.trans ih'

/-- The contents of statements are those of the first and those of the others. -/
theorem Statement.map_allPairs_cons (s : Statement) (statements : List Statement) :
    (allPairs (s :: statements)).map Multiset.ofList =
      (s.pairs.map Multiset.ofList).bind fun first =>
        ((allPairs statements).map Multiset.ofList).map (first + ·) := by
  rw [allPairs]
  cases s.pairs with
  | error e => rfl
  | ok first => cases allPairs statements <;> rfl

/-- Statements with the same pairs, one by one, have the same pairs together. -/
theorem Statement.allPairs_congr {statements statements' : List Statement}
    (h : List.Forall₂ Kind.statement.SameContents statements statements') :
    (allPairs statements).map Multiset.ofList = (allPairs statements').map Multiset.ofList := by
  induction h with
  | nil => rfl
  | @cons s s' statements statements' hfirst hothers ih =>
    rw [Kind.SameContents, Kind.contents, Kind.contents] at hfirst
    rw [map_allPairs_cons, map_allPairs_cons, hfirst, ih]

/-- Conditions may be written in another way anywhere in the statements of a text, any number of
times. However texts are read, the text keeps its pairs in some order, or its error. -/
theorem extract_rewritten {read : StatementReader} {sql sql' : String}
    {statements statements' : List Statement} (hread : read sql = .ok statements)
    (hread' : read sql' = .ok statements')
    (h : List.Forall₂ (Relation.EqvGen Statement.Rewrites) statements statements') :
    (extract read sql).map PairCollection.contents =
      (extract read sql').map PairCollection.contents := by
  have hcontents (statements : List Statement) :
      ((Statement.allPairs statements).map PairCollection.mk).map PairCollection.contents =
        (Statement.allPairs statements).map Multiset.ofList := by
    cases Statement.allPairs statements <;> rfl
  rw [extract_eq hread, extract_eq hread', hcontents, hcontents]
  exact Statement.allPairs_congr (h.imp fun _ _ hs => Statement.sameContents_of_eqvGen hs)

/-- A list of values that is not to be met, and a constant before its column: the list is spread in
parentheses instead of the negation, and the comparison turned round. The trees are given; the texts
have the pairs of these trees when they are read. -/
theorem extract_rewritten_list :
    let list : Expr := .inList (.column ["c"]) [.literal (.number "1"), .literal (.text .plain "x")]
    let spread := Expr.orAny (.column ["c"])
      (.binary .equal (.column ["c"]) (.literal (.number "1"))) [.literal (.text .plain "x")]
    let s : Statement := .delete (some (.binary .and list.unary
      (.binary .less (.literal (.number "4")) (.column ["e"]))))
    let s' : Statement := .delete (some (.binary .and spread.nested
      (.binary .less (.column ["e"]) (.literal (.number "4")))))
    let sql := "DELETE FROM t WHERE NOT c IN (1, 'x') AND 4 < e"
    let sql' := "DELETE FROM t WHERE (c = 1 OR c = 'x') AND e < 4"
    let read : StatementReader := fun text => .ok [if text = sql then s else s']
    Relation.EqvGen Statement.Rewrites s s' ∧
      (extract read sql).map PairCollection.contents =
        (extract read sql').map PairCollection.contents ∧
      extract read sql = extract Statement.readAll sql ∧
      extract read sql' = extract Statement.readAll sql' := by
  intro list spread s s' sql sql' read
  let left : Path .expr .statement := .up (.binaryLeft .and
    (.binary .less (.literal (.number "4")) (.column ["e"]))) (.up .deleteSelection .here)
  let right : Path .expr .statement :=
    .up (.binaryRight .and spread.nested) (.up .deleteSelection .here)
  have hnegate := Statement.Rewrites.inside left (Expr.Rewrites.negate
    (Expr.columnName?_eq_none_iff.1 (rfl : list.columnName? = none))
    (Expr.literalText?_eq_none_iff.1 rfl))
  have hspread := Statement.Rewrites.inside left
    (.spreadList ["c"] (.literal (.number "1")) [.literal (.text .plain "x")])
  have hparenthesize := Statement.Rewrites.inside left (Expr.Rewrites.parenthesize
    (Expr.columnName?_eq_none_iff.1 (rfl : spread.columnName? = none))
    (Expr.literalText?_eq_none_iff.1 rfl))
  have hexchange := Statement.Rewrites.inside right
    (.exchange (show Operator.less ∈ Operator.comparisons by decide)
      (.literal (.number "4")) (.column ["e"]))
  have hchain : Relation.EqvGen Statement.Rewrites s s' :=
    .trans _ _ _ (.symm _ _ (.rel _ _ hnegate)) (.trans _ _ _ (.rel _ _ hspread)
      (.trans _ _ _ (.rel _ _ hparenthesize) (.rel _ _ hexchange)))
  have hread : read sql = .ok [s] := congrArg (Except.ok [·]) (if_pos rfl)
  have hread' : read sql' = .ok [s'] := congrArg (Except.ok [·]) (if_neg (by decide))
  exact ⟨hchain, extract_rewritten hread hread' (.cons hchain .nil), by decide +kernel,
    by decide +kernel⟩

end LogAudit.Sql
