import LogAudit.Proofs.Sql.Pairs
import Mathlib.Data.List.Dedup
import Mathlib.Data.List.Perm.Basic
import Mathlib.Tactic.Choose

/-!
# Nodes of statements

A node relates a column to a constant: a comparison, a bound of a range, an item of a list, an
assignment. The layer of an expression, a query or a statement holds the nodes at its top and the
parts that are looked into, so that a path through parts and a number tell the place of a node. A
layer tells some pairs (`Layer.Tells`) if these are the pairs of the nodes in it, each node being
taken at its place and once. Pairs that are told at the top and in the parts are told together
(`Layer.tells_of_parts`).
-/

namespace LogAudit.Sql

/-! ## The pair of a node -/

/-- The expression is a column of this name, whatever qualifies it. -/
def Expr.Names (e : Expr) (name : String) : Prop :=
  ∃ qualifiers, e = .column (qualifiers ++ [name])

/-- The expression is a constant of this text: a number, or a text in any form but by code
points. -/
inductive Expr.Denotes : Expr → String → Prop where
  | number (digits : String) : Denotes (.literal (.number digits)) digits
  | text (kind : TextKind) (value : String)
      (hkind : kind ∈ [.plain, .escaped, .national, .hexadecimal, .dollar]) :
      Denotes (.literal (.text kind value)) value

/-- Neither part of the pair is empty. -/
def Pair.Full (p : Pair) : Prop := p.column ≠ "" ∧ p.value ≠ ""

/-- The pair is that of a column and a constant. -/
def Pair.Joins (p : Pair) (column value : Expr) : Prop :=
  column.Names p.column ∧ value.Denotes p.value ∧ p.Full

/-- The operators that compare: `=`, `<>`, `<`, `<=`, `>`, `>=` and `<=>`. -/
def Operator.comparisons : List Operator :=
  [equal, notEqual, less, lessOrEqual, greater, greaterOrEqual, spaceship]

/-- What relates a column to a constant. -/
inductive Node where
  /-- Two operands that are compared or matched. -/
  | comparison (left right : Expr)
  /-- A bound of a range or an item of a list, with the subject before it. -/
  | candidate (subject value : Expr)
  /-- A value assigned to a column, or to several at once. -/
  | assignment (column : Option String) (value : Expr)

/-- The node gives a pair. In a comparison either side may be the column. -/
def Node.Gives : Node → Pair → Prop
  | comparison left right, p => p.Joins left right ∨ p.Joins right left
  | candidate subject value, p => p.Joins subject value
  | assignment column value, p => column = some p.column ∧ value.Denotes p.value ∧ p.Full

/-- The pair of a node, if it has one. -/
def Node.pairs : Node → List Pair
  | comparison left right => Pair.ofComparison left right
  | candidate subject value => Pair.of? subject.columnName? value.literalText?
  | assignment column value => Pair.of? column value.literalText?

/-- Operands are compared exactly by the operators that compare. -/
theorem Operator.isComparison_iff {op : Operator} : op.isComparison = true ↔ op ∈ comparisons := by
  cases op <;> simp [isComparison, comparisons]

/-- The column of an expression is the name of the column that it is. -/
theorem Expr.columnName?_eq_some_iff {e : Expr} {name : String} :
    e.columnName? = some name ↔ e.Names name := by
  constructor
  · intro h
    cases e with
    | column path =>
      obtain ⟨qualifiers, rfl⟩ := List.getLast?_eq_some_iff.1 h
      exact ⟨qualifiers, rfl⟩
    | _ => exact absurd h (by simp [columnName?])
  · rintro ⟨qualifiers, rfl⟩
    exact List.getLast?_concat

/-- The text of an expression is that of the constant that it is. -/
theorem Expr.literalText?_eq_some_iff {e : Expr} {text : String} :
    e.literalText? = some text ↔ e.Denotes text := by
  constructor
  · intro h
    cases e with
    | literal value =>
      cases value with
      | number digits =>
        obtain rfl := Option.some.inj h
        exact .number digits
      | text kind value =>
        cases kind with
        | unicode => exact absurd h (by simp [literalText?, Literal.text?])
        | _ =>
          obtain rfl := Option.some.inj h
          exact .text _ value (by decide)
      | symbol => exact absurd h (by simp [literalText?, Literal.text?])
    | _ => exact absurd h (by simp [literalText?])
  · intro h
    cases h with
    | number digits => rfl
    | text kind value hkind =>
      cases kind with
      | unicode => exact absurd hkind (by decide)
      | _ => rfl

/-- No expression is both a column and a constant. -/
theorem Expr.Names.not_denotes {e : Expr} {name text : String} (h : e.Names name) :
    ¬ e.Denotes text := by
  obtain ⟨qualifiers, rfl⟩ := h
  exact nofun

/-- A column and a value are paired if both are there and neither is empty. -/
theorem Pair.mem_of? {p : Pair} {column value : Option String} :
    p ∈ of? column value ↔ column = some p.column ∧ value = some p.value ∧ p.Full := by
  obtain ⟨c, v⟩ := p
  cases column with
  | none => simp [of?]
  | some column =>
    cases value with
    | none => simp [of?]
    | some value =>
      simp only [of?, Full, Option.some.injEq]
      split
      · rename_i hempty
        simp only [List.not_mem_nil, false_iff]
        rintro ⟨rfl, rfl, hc, hv⟩
        exact hempty.elim hc hv
      · rename_i hfull
        rw [List.mem_singleton, Pair.mk.injEq]
        constructor
        · rintro ⟨rfl, rfl⟩
          exact ⟨rfl, rfl, not_or.1 hfull⟩
        · rintro ⟨rfl, rfl, -⟩
          exact ⟨rfl, rfl⟩

/-- A column and a value give one pair at most. -/
theorem Pair.length_of?_le (column value : Option String) : (of? column value).length ≤ 1 := by
  unfold of?
  repeat' split
  all_goals simp

/-- Two operands that are compared are paired either way round. -/
theorem Pair.mem_ofComparison {p : Pair} {left right : Expr} :
    p ∈ ofComparison left right ↔ p.Joins left right ∨ p.Joins right left := by
  have hleft := @Expr.columnName?_eq_some_iff left
  have hright := @Expr.literalText?_eq_some_iff right
  unfold ofComparison
  split
  · rename_i column value hcolumn hvalue
    have hnames := hleft.1 hcolumn
    have hother : ¬ p.Joins right left := fun h => hnames.not_denotes h.2.1
    rw [mem_of?, ← hcolumn, ← hvalue, hleft, hright, ← Joins, or_iff_left hother]
  · rename_i hnone
    have hother : ¬ p.Joins left right := fun h => hnone _ _ (hleft.2 h.1) (hright.2 h.2.1)
    rw [mem_of?, Expr.columnName?_eq_some_iff, Expr.literalText?_eq_some_iff, ← Joins,
      or_iff_right hother]

/-- The pairs of a node are those that it gives. -/
theorem Node.mem_pairs {n : Node} {p : Pair} : p ∈ n.pairs ↔ n.Gives p := by
  cases n with
  | comparison left right => exact Pair.mem_ofComparison
  | candidate subject value =>
    rw [pairs, Pair.mem_of?, Expr.columnName?_eq_some_iff, Expr.literalText?_eq_some_iff]
    rfl
  | assignment column value =>
    rw [pairs, Pair.mem_of?, Expr.literalText?_eq_some_iff]
    rfl

/-- A node gives one pair at most. -/
theorem Node.length_pairs_le (n : Node) : n.pairs.length ≤ 1 := by
  cases n with
  | comparison left right =>
    simp only [pairs, Pair.ofComparison]
    split <;> exact Pair.length_of?_le _ _
  | candidate subject value => exact Pair.length_of?_le _ _
  | assignment column value => exact Pair.length_of?_le _ _

/-! ## Layers -/

/-- What a statement is looked into for. -/
inductive Part where
  | expr (e : Expr)
  | query (q : Query)
  | body (b : Body)

/-- The nodes at the top of something, and the parts of it that are looked into. -/
structure Layer where
  nodes : List Node
  parts : List Part

/-- What an expression, a query or a body is made of. The subject of a range or a list, the operands
of a function, and what stands around the conditions of a selection are not looked into. -/
def Part.layer : Part → Layer
  | .expr (.column _) => ⟨[], []⟩
  | .expr (.literal _) => ⟨[], []⟩
  | .expr (.binary op left right) =>
    ⟨if op ∈ Operator.comparisons then [.comparison left right] else [], [.expr left, .expr right]⟩
  | .expr (.like subject pattern) =>
    ⟨[.comparison subject pattern], [.expr subject, .expr pattern]⟩
  | .expr (.between subject low high) =>
    ⟨[.candidate subject low, .candidate subject high], [.expr low, .expr high]⟩
  | .expr (.inList subject items) => ⟨items.map (.candidate subject), items.map .expr⟩
  | .expr (.inQuery subject inside) => ⟨[], [.expr subject, .query inside]⟩
  | .expr (.existence inside) => ⟨[], [.query inside]⟩
  | .expr (.scalar inside) => ⟨[], [.query inside]⟩
  | .expr (.nested inside) => ⟨[], [.expr inside]⟩
  | .expr (.unary inside) => ⟨[], [.expr inside]⟩
  | .expr (.test inside) => ⟨[], [.expr inside]⟩
  | .expr (.cast inside) => ⟨[], [.expr inside]⟩
  | .expr (.collate inside) => ⟨[], [.expr inside]⟩
  | .expr (.cases operand conditions results otherwise) =>
    ⟨[], (operand.toList ++ otherwise.toList ++ conditions ++ results).map .expr⟩
  | .expr (.tuple items) => ⟨[], items.map .expr⟩
  | .expr (.form _) => ⟨[], []⟩
  | .query (.mk _ rows) => ⟨[], [.body rows]⟩
  | .body (.select _ _ selection having) => ⟨[], (selection.toList ++ having.toList).map .expr⟩
  | .body (.query inside) => ⟨[], [.query inside]⟩
  | .body (.setOperation left right) => ⟨[], [.body left, .body right]⟩
  | .body (.values _) => ⟨[], []⟩
  | .body .table => ⟨[], []⟩

/-- What a statement is made of. -/
def Statement.layer : Statement → Layer
  | .query q => ⟨[], [.query q]⟩
  | .update assignments selection =>
    ⟨assignments.map fun (column, value) => .assignment column value,
      (assignments.map Prod.snd ++ selection.toList).map .expr⟩
  | .delete selection => ⟨[], selection.toList.map .expr⟩
  | .insert columns (some (.mk _ (.values rows))) =>
    ⟨rows.flatMap fun row => (columns.zip row).map fun (column, value) =>
      .assignment (some column) value, []⟩
  | .insert _ _ => ⟨[], []⟩
  | .command => ⟨[], []⟩

/-- Where a node stands: the parts on the way to its layer, each by its number, and its number among
the nodes there. -/
structure Place where
  path : List Nat
  number : Nat

namespace Layer

/-- The node with a number at the end of a path. -/
def node? : Layer → List Nat → Nat → Option Node
  | l, [], number => l.nodes[number]?
  | l, i :: path, number => l.parts[i]?.bind fun part => part.layer.node? path number

/-- The pairs are those of the nodes of the layer and of all layers inside it: they are told by
places, no place tells more than one, and a place tells a pair if and only if a node stands there
that gives it. -/
def Tells (l : Layer) (pairs : List Pair) : Prop :=
  ∃ told : List (Place × Pair), (told.map Prod.snd).Perm pairs ∧ (told.map Prod.fst).Nodup ∧
    ∀ place p, (place, p) ∈ told ↔ ∃ n, l.node? place.path place.number = some n ∧ n.Gives p

/-! ## Nodes at the top and in the parts -/

/-- The pairs of the nodes at the top, at their places. -/
def own (nodes : List Node) : List (Place × Pair) :=
  nodes.zipIdx.flatMap fun (n, number) => n.pairs.map (⟨[], number⟩, ·)

/-- What is told in each of some parts, by the places seen from outside. -/
def inner (told : Part → List (Place × Pair)) (parts : List Part) : List (Place × Pair) :=
  parts.zipIdx.flatMap fun (part, i) =>
    (told part).map fun (place, p) => (⟨i :: place.path, place.number⟩, p)

section

variable {nodes : List Node} {parts : List Part} {told : Part → List (Place × Pair)}

/-- Items of a list are numbered one after the other. -/
theorem pairwise_zipIdx {α : Type} (items : List α) :
    items.zipIdx.Pairwise fun a b => a.2 ≠ b.2 := by
  have hnumbers : (items.zipIdx.map Prod.snd).Pairwise (· < ·) := by
    rw [List.zipIdx_map_snd]
    exact List.pairwise_lt_range'
  exact (List.pairwise_map.1 hnumbers).imp fun h => Nat.ne_of_lt h

/-- The pairs at the top are those of the nodes there. -/
theorem map_snd_own : (own nodes).map Prod.snd = nodes.flatMap Node.pairs := by
  have hpairs : ∀ a : Node × Nat,
      (a.1.pairs.map fun p => ((⟨[], a.2⟩ : Place), p)).map Prod.snd = a.1.pairs := by
    intro a
    rw [List.map_map]
    exact List.map_id _
  rw [own, List.map_flatMap]
  simp only [hpairs]
  rw [← List.flatMap_map, List.zipIdx_map_fst]

/-- A pair is told at the top by the place of a node that gives it. -/
theorem mem_own {place : Place} {p : Pair} : (place, p) ∈ own nodes ↔
    place.path = [] ∧ ∃ n, nodes[place.number]? = some n ∧ n.Gives p := by
  obtain ⟨path, number⟩ := place
  simp only [own, List.mem_flatMap, List.mem_map, Prod.exists, List.mem_zipIdx_iff_getElem?,
    Prod.mk.injEq, Place.mk.injEq, Node.mem_pairs]
  constructor
  · rintro ⟨n, i, hn, q, hq, ⟨rfl, rfl⟩, rfl⟩
    exact ⟨rfl, n, hn, hq⟩
  · rintro ⟨rfl, n, hn, hp⟩
    exact ⟨n, number, hn, p, hp, ⟨rfl, rfl⟩, rfl⟩

/-- No place at the top tells more than one pair. -/
theorem nodup_own : ((own nodes).map Prod.fst).Nodup := by
  rw [own, List.map_flatMap, List.nodup_flatMap]
  constructor
  · rintro ⟨n, number⟩ -
    dsimp only
    have hlength := n.length_pairs_le
    rcases hpairs : n.pairs with _ | ⟨p, _ | ⟨q, others⟩⟩
    · exact List.nodup_nil
    · exact List.nodup_singleton _
    · rw [hpairs] at hlength
      exact absurd hlength (by simp)
  · refine (pairwise_zipIdx nodes).imp ?_
    rintro ⟨n, i⟩ ⟨n', i'⟩ hne
    refine List.disjoint_left.2 fun place hplace hplace' => ?_
    simp only [List.map_map, List.mem_map, Function.comp_apply] at hplace hplace'
    obtain ⟨-, -, rfl⟩ := hplace
    obtain ⟨-, -, heq⟩ := hplace'
    exact hne (congrArg Place.number heq).symm

/-- The pairs in the parts are those that the parts tell. -/
theorem map_snd_inner :
    (inner told parts).map Prod.snd = parts.flatMap fun part => (told part).map Prod.snd := by
  have hpairs : ∀ a : Part × Nat,
      ((told a.1).map fun b => ((⟨a.2 :: b.1.path, b.1.number⟩ : Place), b.2)).map Prod.snd =
        (told a.1).map Prod.snd := fun a => List.map_map
  rw [inner, List.map_flatMap]
  simp only [hpairs]
  conv_rhs => rw [← List.zipIdx_map_fst 0 parts, List.flatMap_map]

/-- A pair is told in a part by the place that the part has for it, behind its number. -/
theorem mem_inner {place : Place} {p : Pair} : (place, p) ∈ inner told parts ↔
    ∃ i path part, place.path = i :: path ∧ parts[i]? = some part ∧
      (⟨path, place.number⟩, p) ∈ told part := by
  obtain ⟨path, number⟩ := place
  simp only [inner, List.mem_flatMap, List.mem_map, Prod.exists, List.mem_zipIdx_iff_getElem?,
    Prod.mk.injEq, Place.mk.injEq]
  constructor
  · rintro ⟨part, i, hpart, place, q, hq, ⟨rfl, rfl⟩, rfl⟩
    exact ⟨i, place.path, part, rfl, hpart, hq⟩
  · rintro ⟨i, path, part, rfl, hpart, hp⟩
    exact ⟨part, i, hpart, _, p, hp, ⟨rfl, rfl⟩, rfl⟩

/-- No place in the parts tells more than one pair if none does in any of them. -/
theorem nodup_inner (h : ∀ part ∈ parts, ((told part).map Prod.fst).Nodup) :
    ((inner told parts).map Prod.fst).Nodup := by
  rw [inner, List.map_flatMap, List.nodup_flatMap]
  constructor
  · rintro ⟨part, i⟩ hpart
    have hinside := h part (List.fst_mem_of_mem_zipIdx hpart)
    have hplaces : ((told part).map fun b => ((⟨i :: b.1.path, b.1.number⟩ : Place), b.2)).map
        Prod.fst = ((told part).map Prod.fst).map fun place => ⟨i :: place.path, place.number⟩ := by
      rw [List.map_map, List.map_map]
      rfl
    dsimp only
    rw [hplaces]
    refine hinside.map ?_
    rintro ⟨path, number⟩ ⟨path', number'⟩ heq
    simpa using heq
  · refine (pairwise_zipIdx parts).imp ?_
    rintro ⟨part, i⟩ ⟨part', i'⟩ hne
    refine List.disjoint_left.2 fun place hplace hplace' => ?_
    simp only [List.map_map, List.mem_map, Function.comp_apply] at hplace hplace'
    obtain ⟨_, _, rfl⟩ := hplace
    obtain ⟨_, _, heq⟩ := hplace'
    exact hne (List.cons.inj (congrArg Place.path heq)).1.symm

end

/-- A layer tells the pairs of the nodes at its top together with those that its parts tell, in any
order. -/
theorem tells_of_parts {l : Layer} {pairs : List Pair} {f : Part → List Pair}
    (hparts : ∀ part ∈ l.parts, part.layer.Tells (f part))
    (hpairs : pairs.Perm (l.nodes.flatMap Node.pairs ++ l.parts.flatMap f)) : l.Tells pairs := by
  choose! told hperm hnodup hmem using hparts
  refine ⟨own l.nodes ++ inner told l.parts, ?_, ?_, ?_⟩
  · rw [List.map_append, map_snd_own, map_snd_inner]
    have hinner : (l.parts.flatMap fun part => (told part).map Prod.snd).Perm
        (l.parts.flatMap f) := List.Perm.flatMap_left _ hperm
    exact (hinner.append_left _).trans hpairs.symm
  · rw [List.map_append, List.nodup_append', List.disjoint_left]
    refine ⟨nodup_own, nodup_inner hnodup, ?_⟩
    intro place hown hinner
    obtain ⟨_, htop, rfl⟩ := List.mem_map.1 hown
    obtain ⟨_, hinside, hsame⟩ := List.mem_map.1 hinner
    obtain ⟨i, path, _, hpath, _⟩ := mem_inner.1 hinside
    have hnil := (mem_own.1 htop).1
    rw [← hsame, hpath] at hnil
    exact absurd hnil (List.cons_ne_nil i path)
  · rintro ⟨_ | ⟨i, path⟩, number⟩ p
    · rw [List.mem_append, mem_own, mem_inner]
      simp [node?]
    · rw [List.mem_append, mem_own, mem_inner]
      simp only [reduceCtorEq, false_and, false_or, node?, Option.bind_eq_some_iff]
      constructor
      · rintro ⟨i, path, part, hpath, hpart, hp⟩
        obtain ⟨rfl, rfl⟩ := List.cons.inj hpath
        obtain ⟨n, hn, hgives⟩ := (hmem part (List.mem_of_getElem? hpart) _ _).1 hp
        exact ⟨n, ⟨part, hpart, hn⟩, hgives⟩
      · rintro ⟨n, ⟨part, hpart, hn⟩, hgives⟩
        exact ⟨i, path, part, rfl, hpart,
          (hmem part (List.mem_of_getElem? hpart) _ _).2 ⟨n, hn, hgives⟩⟩

end Layer

end LogAudit.Sql
