import LogAudit.Proofs.Sql.Contexts
import Mathlib.Data.Fintype.EquivFin

/-!
# Queries inside statements

A statement has all the pairs of a query inside it if and only if every step of the way to the query
is looked into (`Path.lookedInto_iff`). The subjects of ranges and of lists are steps that are not.
-/

namespace LogAudit.Sql

/-- A query that compares one column with a constant. -/
def Query.comparing (column : String) : Query :=
  .mk [] (.select [] [] (some (.binary .equal (.column [column]) (.literal (.number "1"))))
    none)

/-- It has the pair of the two. -/
theorem Query.pairs_comparing {column : String} (h : column ≠ "") :
    (comparing column).pairs = [⟨column, "1"⟩] := by
  simp [comparing, pairs, Body.pairs, Expr.optionalPairs, Expr.pairs, Operator.pairs,
    Operator.isComparison, Pair.ofComparison, Pair.of?, Expr.columnName?, Expr.literalText?,
    Literal.text?, h]

/-- There is a column that none of some pairs names. -/
theorem exists_column_notMem (pairs : List Pair) :
    ∃ column, column ≠ "" ∧ ∀ p ∈ pairs, p.column ≠ column := by
  have hinfinite : Infinite String := .of_injective String.ofList fun _ _ => String.ofList_injective
  obtain ⟨column, hcolumn⟩ := Infinite.exists_notMem_finset ("" :: pairs.map Pair.column).toFinset
  rw [List.mem_toFinset, List.mem_cons, List.mem_map] at hcolumn
  exact ⟨column, fun h => hcolumn (.inl h), fun p hp h => hcolumn (.inr ⟨p, hp, h⟩)⟩

/-- A text of one statement has the pairs of that. -/
theorem extract_single {read : StatementReader} {sql : String} {s : Statement}
    (hread : read sql = .ok [s]) : extract read sql = s.pairs.map PairCollection.mk := by
  rw [extract_eq hread, Statement.allPairs]
  cases s.pairs with
  | error e => rfl
  | ok pairs => exact congrArg (Except.ok <| PairCollection.mk ·) (List.append_nil pairs)

/-- What a statement collects are its pairs. -/
theorem Statement.collect_eq_ok_iff {s : Statement} {pairs : List Pair} :
    s.collect = .ok ⟨pairs⟩ ↔ s.pairs = .ok pairs := by
  rw [collect_eq]
  cases s.pairs with
  | error e => exact iff_of_false nofun nofun
  | ok own =>
    change Except.ok (PairCollection.mk own) = _ ↔ _
    rw [Except.ok.injEq, Except.ok.injEq, PairCollection.mk.injEq]

/-- A query inside a statement is never skipped exactly if it is looked into on all of the way: then
the statement has the pairs that the query has by itself, side by side, and so have their texts,
however texts are read. -/
theorem Path.lookedInto_iff (path : Path .query .statement) :
    path.LookedInto ↔ ∀ q : Query, ∃ alone all, (Statement.query q).collect = .ok ⟨alone⟩ ∧
      Statement.collect (path.plug q) = .ok ⟨all⟩ ∧ alone <:+: all ∧
      ∀ (read : StatementReader) sql sql', read sql = .ok [.query q] →
        read sql' = .ok [path.plug q] →
        extract read sql = .ok ⟨alone⟩ ∧ extract read sql' = .ok ⟨all⟩ := by
  simp only [Statement.collect_eq_ok_iff]
  constructor
  · intro h q
    obtain ⟨all, hall, hwithin⟩ := path.infix_contents h (t := q) rfl
    refine ⟨q.pairs, all, rfl, hall, hwithin, fun read sql sql' hread hread' => ?_⟩
    rw [extract_single hread, extract_single hread']
    exact ⟨rfl, congrArg (Except.map PairCollection.mk) hall⟩
  · intro h
    by_contra hunseen
    obtain ⟨-, all, -, hall, -⟩ := h (.comparing "")
    obtain ⟨column, hne, hfresh⟩ := exists_column_notMem all
    obtain ⟨alone, all', halone, hall', hwithin, -⟩ := h (.comparing column)
    have hsame := path.sameContents_of_face hunseen
      (show Kind.query.SameFace (.comparing "") (.comparing column) from rfl)
    rw [Kind.SameContents, Kind.contents, Kind.contents, hall, hall'] at hsame
    have hperm : all.Perm all' := Multiset.coe_eq_coe.1 (Except.ok.inj hsame)
    have hpair : ⟨column, "1"⟩ ∈ alone := by
      obtain rfl := Except.ok.inj halone
      rw [Query.pairs_comparing hne]
      exact List.mem_singleton_self _
    exact hfresh _ (hperm.mem_iff.2 (hwithin.subset hpair)) rfl

/-- A query as the subject of a range or of a list of candidates is skipped. -/
theorem subject_skipped :
    extract Statement.readAll "SELECT a FROM s WHERE b = 'x'" = .ok ⟨[⟨"b", "x"⟩]⟩ ∧
    extract Statement.readAll
      "SELECT * FROM t WHERE (SELECT a FROM s WHERE b = 'x') BETWEEN 1 AND 2" = .ok ⟨[]⟩ ∧
    extract Statement.readAll
      "SELECT * FROM t WHERE (SELECT a FROM s WHERE b = 'x') IN (1, 2)" = .ok ⟨[]⟩ := by
  decide +kernel

end LogAudit.Sql
