import LogAudit.Line.Compilation
import LogAudit.Proofs.Line.Layout
import LogAudit.Proofs.Text.RegularExpression

/-!
# Compiled templates number their groups rightly

The compiler counts groups while it writes a regular expression, and the reader of the expression
counts them again while it reads it. Reading follows the pieces of a template one by one
(`run_pieces`): each token becomes one group with the number that the compiler has noted, whatever
literals and optional parts stand around it, and what comes out is the pattern of the template
(`CompiledTemplate.compile_correct`).
-/

namespace LogAudit.Line

open LogAudit.Text LogAudit.Text.RegularExpression

namespace Token

/-- A date and a time of day as they are read: in one sequence. -/
def flatClock (fraction : List Pattern) : Pattern :=
  .sequence ([.times 4 isDecimal, .char '-', .times 2 isDecimal, .char '-', .times 2 isDecimal,
    .char ' ', .times 2 isDecimal, .char ':', .times 2 isDecimal, .char ':', .times 2 isDecimal] ++
    fraction ++ [.char ' ', .optional (.one fun c => c == '-' || c == '+'), .atLeastOne isWord])

/-- The texts of a token as its expression is read. -/
def readContent : Token → Pattern
  | timestampMillis => flatClock [.char '.', .atLeastOne isDecimal]
  | timestamp | sessionStart => flatClock []
  | token => token.content

theorem same_content (token : Token) : token.readContent.Same token.content := by
  cases token <;> exact fun _ _ _ _ => rfl

theorem groups_readContent (token : Token) : token.readContent.groups = [] := by
  cases token <;> rfl

/-- The part that the expression of a token is read as, if its group has this number. -/
def item (token : Token) (number : Nat) : Item :=
  if token.mayBeAbsent then .settled (.optional (.group number token.readContent))
  else .once (.group number token.readContent)

/-- The expression of a token is read as one group with the next number. -/
theorem run_expression (token : Token) (layer : Layer) (outer : List Layer) (groups : Nat) :
    Reading.run ⟨layer, outer, groups, .text⟩ token.expression.toList =
      .ok (Reading.push ⟨layer, outer, groups + 1, .text⟩ (token.item (groups + 1))) := by
  cases token <;> rfl

theorem same_item (token : Token) (number : Nat) :
    (token.item number).pattern.Same (token.fragment number) := by
  rw [item, fragment_eq]
  split
  · exact (token.same_content.group number).optional
  · exact token.same_content.group number

theorem groups_item (token : Token) (number : Nat) :
    (token.item number).pattern.groups = [(number, token.readContent)] := by
  rw [item]
  split
  · rw [Item.pattern, Pattern.groups_optional, Pattern.groups, groups_readContent]
  · rw [Item.pattern, Pattern.groups, groups_readContent]

end Token

namespace Compilation

/-! ## Reading the expressions of pieces -/

/-- What is read after the expression of a piece. -/
def follow (x : Reading) : Piece → Reading
  | .literal c => x.push (.once (.char c))
  | .token token => Reading.push { x with groups := x.groups + 1 } (token.item (x.groups + 1))
  | .mayStop => x.openPart

/-- The expressions of some pieces, one after the other. -/
def pieceTexts (pieces : List Piece) : List Char :=
  pieces.flatMap fun piece => (pieceExpression piece).toList

theorem run_piece (layer : Layer) (outer : List Layer) (groups : Nat) (piece : Piece) :
    Reading.run ⟨layer, outer, groups, .text⟩ (pieceExpression piece).toList =
      .ok (follow ⟨layer, outer, groups, .text⟩ piece) := by
  cases piece with
  | literal c => exact Reading.run_escape _ rfl c
  | token token => exact token.run_expression layer outer groups
  | mayStop => rfl

theorem mode_follow (x : Reading) (piece : Piece) : (follow x piece).mode = .text := by
  cases piece <;> rfl

/-- Reading follows the pieces. -/
theorem run_pieces {x : Reading} (hmode : x.mode = .text) (pieces : List Piece) :
    x.run (pieceTexts pieces) = .ok (pieces.foldl follow x) := by
  induction pieces generalizing x with
  | nil => rfl
  | cons piece pieces ih =>
    obtain ⟨layer, outer, groups, _⟩ := x
    obtain rfl := hmode
    rw [pieceTexts, List.flatMap_cons, Reading.run_of_run (run_piece layer outer groups piece)]
    exact ih (mode_follow _ piece)

/-- Every optional part is open in the end. -/
theorem outer_follow {x : Reading} (hmode : x.mode = .text) (pieces : List Piece) :
    (pieces.foldl follow x).mode = .text ∧
      (pieces.foldl follow x).outer.length = x.outer.length + pieces.count .mayStop := by
  induction pieces generalizing x with
  | nil => exact ⟨hmode, rfl⟩
  | cons piece pieces ih =>
    obtain ⟨hend, hlength⟩ := ih (mode_follow x piece)
    refine ⟨hend, hlength.trans ?_⟩
    cases piece with
    | literal c => rw [List.count_cons_of_ne (by simp)]; rfl
    | token token => rw [List.count_cons_of_ne (by simp)]; rfl
    | mayStop =>
      rw [List.count_cons_self]
      exact Nat.add_right_comm _ 1 _

/-- The parts that some pieces are read as, if the first token has this number: an optional part is
closed at the end. -/
def items : Nat → List Piece → List Item
  | _, [] => []
  | number, .literal c :: pieces => .once (.char c) :: items number pieces
  | number, .token token :: pieces => token.item number :: items (number + 1) pieces
  | number, .mayStop :: pieces =>
    [.settled (.optional (.sequence ((items number pieces).map Item.pattern)))]

/-- The innermost group is closed as an optional part. -/
theorem run_close {x : Reading} (hmode : x.mode = .text) (houter : x.outer ≠ []) :
    ∃ y : Reading, x.run ")?".toList = .ok y ∧ y.mode = .text ∧
      y.outer.length + 1 = x.outer.length := by
  obtain ⟨⟨number, alternatives, before⟩, outer, groups, _⟩ := x
  obtain rfl := hmode
  obtain ⟨layer, outer, rfl⟩ := List.exists_cons_of_ne_nil houter
  cases number <;> exact ⟨_, rfl, rfl, rfl⟩

/-- What closes the optional part of some pieces, if there is one. -/
def closing (pieces : List Piece) : String := if pieces.contains .mayStop then ")?" else ""

/-- Pieces with one optional part at most are read as their parts once it is closed. -/
theorem run_closing {pieces : List Piece} (hcount : pieces.count .mayStop ≤ 1)
    (number : Option Nat) (alternatives : List Pattern) (before : List Item) (outer : List Layer)
    (groups : Nat) :
    (pieces.foldl follow ⟨⟨number, alternatives, before⟩, outer, groups, .text⟩).run
        (closing pieces).toList =
      .ok ⟨⟨number, alternatives, (items (groups + 1) pieces).reverse ++ before⟩, outer,
        groups + (pieces.filterMap Piece.token?).length, .text⟩ := by
  induction pieces generalizing number alternatives before outer groups with
  | nil => rfl
  | cons piece pieces ih =>
    cases piece with
    | literal c =>
      rw [List.count_cons_of_ne (by simp)] at hcount
      refine (ih hcount number alternatives (.once (.char c) :: before) outer groups).trans ?_
      rw [items, List.reverse_cons, List.append_assoc]
      rfl
    | token token =>
      rw [List.count_cons_of_ne (by simp)] at hcount
      refine (ih hcount number alternatives (token.item (groups + 1) :: before) outer
        (groups + 1)).trans ?_
      have hgroups : groups + 1 + (pieces.filterMap Piece.token?).length =
          groups + ((Piece.token token :: pieces).filterMap Piece.token?).length :=
        Nat.add_assoc groups 1 _ |>.trans (congrArg (groups + ·) (Nat.add_comm 1 _))
      rw [hgroups, items, List.reverse_cons, List.append_assoc]
      rfl
    | mayStop =>
      -- the part is closed behind all pieces, so those behind `%q` are read as a layer of their own
      rw [List.count_cons_self] at hcount
      have hnone : pieces.count .mayStop = 0 := by omega
      have hopen : closing pieces = "" := by
        rw [closing, if_neg]
        simpa using List.count_eq_zero.1 hnone
      have hinner := ih (by omega) none [] [] (⟨number, alternatives, before⟩ :: outer) groups
      rw [hopen, List.append_nil] at hinner
      have hfold := Except.ok.inj hinner
      have hpattern : Layer.pattern ⟨none, [], (items (groups + 1) pieces).reverse⟩ =
          .sequence ((items (groups + 1) pieces).map Item.pattern) := by
        rw [Layer.pattern, Layer.sequence, List.reverse_reverse]
        rfl
      have hclose : closing (.mayStop :: pieces) = ")?" := by simp [closing]
      rw [List.foldl_cons, hclose]
      dsimp only [follow, Reading.openPart]
      rw [hfold, items, ← hpattern]
      rfl

set_option maxRecDepth 2000 in
/-- The group of the levels is read as all of them in their order. -/
theorem run_levels (layer : Layer) (outer : List Layer) (groups : Nat) :
    Reading.run ⟨layer, outer, groups, .text⟩ levels.toList =
      .ok (((Reading.mk layer outer (groups + 1) .text).push
        (.once (.group (groups + 1) (.firstOf (Template.levels.map .text))))).push
          (.once (.char ':'))) := by
  rfl

/-- The parts that stand behind a prefix, if so many groups stand in front of them. -/
def tailItems (groups : Nat) : List Item :=
  [.once (.group (groups + 1) .blanks),
    .once (.group (groups + 2) (.firstOf (Template.levels.map .text))), .once (.char ':'),
    .settled .someBlanks, .once (.group (groups + 3) (.many Pattern.inLine)), .settled .atEnd]

/-- What stands behind a prefix in the expression of a line. -/
def tailText : List Char :=
  r"(\s*)".toList ++ (levels.toList ++ message.toList)

theorem run_tail (number : Option Nat) (alternatives : List Pattern) (before : List Item)
    (outer : List Layer) (groups : Nat) :
    Reading.run ⟨⟨number, alternatives, before⟩, outer, groups, .text⟩ tailText =
      .ok ⟨⟨number, alternatives, (tailItems groups).reverse ++ before⟩, outer, groups + 3,
        .text⟩ := by
  have hblanks : Reading.run ⟨⟨number, alternatives, before⟩, outer, groups, .text⟩
      r"(\s*)".toList = .ok ⟨⟨number, alternatives, .once (.group (groups + 1) .blanks) :: before⟩,
        outer, groups + 1, .text⟩ := rfl
  have hlevels := run_levels ⟨number, alternatives, .once (.group (groups + 1) .blanks) :: before⟩
    outer (groups + 1)
  exact (Reading.run_of_run hblanks).trans ((Reading.run_of_run hlevels).trans rfl)

/-! ## The compiler -/

/-- What the compiler knows after some more pieces. -/
theorem foldl_add (x : Compilation) (pieces : List Piece) :
    (pieces.foldl add x).body.toList = x.body.toList ++ pieceTexts pieces ∧
      (pieces.foldl add x).tokens = x.tokens ++ pieces.filterMap Piece.token? ∧
      (pieces.foldl add x).mayStop = (x.mayStop || pieces.contains .mayStop) ∧
      ∀ slot, (pieces.foldl add x).index slot =
        match Template.lastIndex? slot (pieces.filterMap Piece.token?) with
        | some last => some (x.group + last)
        | none => x.index slot := by
  induction pieces generalizing x with
  | nil => simp [pieceTexts, Template.lastIndex?]
  | cons piece pieces ih =>
    obtain ⟨hbody, htokens, hmayStop, hindex⟩ := ih (x.add piece)
    have hbody' : (x.add piece).body = x.body ++ pieceExpression piece := by
      cases piece <;> rfl
    rw [List.foldl_cons]
    refine ⟨?_, ?_, ?_, fun slot => (hindex slot).trans ?_⟩
    · rw [hbody, hbody', String.toList_append, List.append_assoc]
      rfl
    · rw [htokens]
      cases piece with
      | token token => exact List.append_assoc x.tokens [token] _
      | literal c => rfl
      | mayStop => rfl
    · rw [hmayStop]
      cases piece with
      | token token => rfl
      | literal c => rfl
      | mayStop => simp [add]
    · cases piece with
      | literal c => rfl
      | mayStop => rfl
      | token token =>
        have htoken : (Piece.token token :: pieces).filterMap Piece.token? =
            token :: pieces.filterMap Piece.token? := rfl
        rw [htoken, Template.lastIndex?]
        cases Template.lastIndex? slot (pieces.filterMap Piece.token?) with
        | some last => exact congrArg some (Nat.add_assoc x.group 1 last |>.trans
            (congrArg (x.group + ·) (Nat.add_comm 1 last)))
        | none =>
          by_cases hslot : token.slot = slot
          · simp [add, hslot]
          · simp [add, hslot, Ne.symm hslot]

/-- The expression of a line, sign by sign. -/
theorem toList_expression (text : String) :
    (ofString text).expression.toList =
      r"(\s*)".toList ++ (pieceTexts (Piece.scan text.toList) ++
        ((closing (Piece.scan text.toList)).toList ++ tailText)) := by
  obtain ⟨hbody, -, hmayStop, -⟩ := foldl_add start (Piece.scan text.toList)
  have hstart : start.body.toList = [] := rfl
  have hclosing : closing (Piece.scan text.toList) =
      if (ofString text).mayStop then ")?" else "" := by
    rw [closing, ofString, hmayStop]
    rfl
  rw [expression, hclosing, ofString, tailText]
  simp only [String.toList_append, hbody, hstart, List.nil_append, List.append_assoc]

/-- What is read of the blanks in front. -/
def afterBlanks : Reading := ⟨⟨none, [], [.once (.group 1 .blanks)]⟩, [], 1, .text⟩

theorem run_blanks : Reading.start.run r"(\s*)".toList = .ok afterBlanks := rfl

/-- The parts of the expression of a line. -/
def lineItems (pieces : List Piece) : List Item :=
  .once (.group 1 .blanks) ::
    (items 2 pieces ++ tailItems ((pieces.filterMap Piece.token?).length + 1))

/-- The expression of a line is read as its parts if the optional part is opened once at most. -/
theorem read_expression {text : String} (hcount : (Piece.scan text.toList).count .mayStop ≤ 1) :
    RegularExpression.read (ofString text).expression =
      .ok (.sequence ((lineItems (Piece.scan text.toList)).map Item.pattern)) := by
  generalize hpieces : Piece.scan text.toList = pieces at hcount
  have hclosed : (pieces.foldl follow afterBlanks).run (closing pieces).toList =
      .ok ⟨⟨none, [], (items 2 pieces).reverse ++ [.once (.group 1 .blanks)]⟩, [],
        (pieces.filterMap Piece.token?).length + 1, .text⟩ :=
    Nat.add_comm 1 (pieces.filterMap Piece.token?).length ▸ run_closing hcount ..
  have hitems : ((tailItems ((pieces.filterMap Piece.token?).length + 1)).reverse ++
      ((items 2 pieces).reverse ++ [Item.once (.group 1 .blanks)])).reverse = lineItems pieces := by
    rw [List.reverse_append, List.reverse_append, List.reverse_reverse, List.reverse_reverse]
    rfl
  rw [RegularExpression.read, toList_expression, hpieces, Reading.run_of_run run_blanks,
    Reading.run_of_run (run_pieces rfl pieces), Reading.run_of_run hclosed, run_tail, ← hitems]
  rfl

/-- The expression of a line has an open group at its end if the optional part is opened twice. -/
theorem read_expression_unclosed {text : String}
    (hcount : 1 < (Piece.scan text.toList).count .mayStop) :
    RegularExpression.read (ofString text).expression = .error .unclosedGroup := by
  generalize hpieces : Piece.scan text.toList = pieces at hcount
  obtain ⟨hmode, houter⟩ := outer_follow (show afterBlanks.mode = .text from rfl) pieces
  have hclosing : closing pieces = ")?" := by
    rw [closing, if_pos]
    exact List.contains_iff_mem.2 (List.count_pos_iff.1 (Nat.zero_lt_of_lt hcount))
  have hopen : afterBlanks.outer.length = 0 := rfl
  have hne : (pieces.foldl follow afterBlanks).outer ≠ [] := by
    intro hnil
    rw [hnil, List.length_nil] at houter
    omega
  obtain ⟨⟨⟨number, alternatives, before⟩, outer, groups, _⟩, hclosed, rfl, hlength⟩ :=
    run_close hmode hne
  obtain ⟨layer, outer, rfl⟩ : ∃ layer rest, outer = layer :: rest := by
    refine List.exists_cons_of_ne_nil ?_
    rintro rfl
    rw [List.length_nil] at hlength
    omega
  rw [RegularExpression.read, toList_expression, hpieces, Reading.run_of_run run_blanks,
    Reading.run_of_run (run_pieces rfl pieces), hclosing, Reading.run_of_run hclosed, run_tail]
  rfl

/-! ## Groups -/

/-- The parts of some pieces match as the pattern of the template has it. -/
theorem same_items (number : Nat) (pieces : List Piece) :
    (Pattern.sequence ((items number pieces).map Item.pattern)).Same
      (Template.body number pieces) := by
  induction pieces generalizing number with
  | nil => exact .refl _
  | cons piece pieces ih =>
    cases piece with
    | literal c =>
      exact (Pattern.same_sequence_cons _ _).trans ((Pattern.Same.refl _).andThen (ih number))
    | token token =>
      exact (Pattern.same_sequence_cons _ _).trans
        ((token.same_item number).andThen (ih (number + 1)))
    | mayStop => exact (ih number).optional

/-- The groups of some pieces are those of their tokens, one after the other. -/
theorem groups_items (number : Nat) (pieces : List Piece) :
    (Pattern.sequence ((items number pieces).map Item.pattern)).groups =
      ((pieces.filterMap Piece.token?).zipIdx number).map fun field =>
        (field.2, field.1.readContent) := by
  induction pieces generalizing number with
  | nil => rfl
  | cons piece pieces ih =>
    cases piece with
    | literal c =>
      rw [items, List.map_cons, Pattern.groups_sequence, List.flatMap_cons,
        ← Pattern.groups_sequence, ih]
      rfl
    | token token =>
      rw [items, List.map_cons, Pattern.groups_sequence, List.flatMap_cons,
        ← Pattern.groups_sequence, ih, token.groups_item]
      rfl
    | mayStop => exact (Pattern.groups_optional _).trans (ih number)

/-- The parts of a line match as the pattern of the template has it. -/
theorem same_lineItems (t : Template) :
    (Pattern.sequence ((lineItems t.pieces).map Item.pattern)).Same t.pattern := by
  rw [lineItems, List.map_cons, List.map_append]
  refine (Pattern.same_sequence_cons _ _).trans ((Pattern.Same.refl _).andThen ?_)
  exact (Pattern.same_sequence_append _ _).trans ((same_items 2 t.pieces).andThen (.refl _))

/-- The groups of a line are the blanks in front, those of the tokens, the blanks behind them, the
level and the message. -/
theorem groups_lineItems (t : Template) :
    (Pattern.sequence ((lineItems t.pieces).map Item.pattern)).groups =
      (1, .blanks) :: ((t.tokens.zipIdx 2).map fun field => (field.2, field.1.readContent)) ++
        [(t.tokens.length + 2, .blanks),
          (t.tokens.length + 3, .firstOf (Template.levels.map .text)),
          (t.tokens.length + 4, .many Pattern.inLine)] := by
  rw [lineItems, List.map_cons, List.map_append, Pattern.groups_sequence, List.flatMap_cons,
    List.flatMap_append, ← Pattern.groups_sequence, groups_items]
  rfl

section

variable (t : Template)

/-- The groups of a line are numbered from 1 on. -/
theorem numbers_lineItems :
    (Pattern.sequence ((lineItems t.pieces).map Item.pattern)).groups.map Prod.fst =
      List.range' 1 (t.tokens.length + 4) := by
  have hfields : ((t.tokens.zipIdx 2).map fun field => (field.2, field.1.readContent)).map
      Prod.fst = List.range' 2 t.tokens.length := by
    rw [List.map_map]
    exact List.zipIdx_map_snd 2 t.tokens
  have hrange : List.range' 1 (t.tokens.length + 4) =
      1 :: (List.range' 2 t.tokens.length ++ List.range' (t.tokens.length + 2) 3) := by
    rw [List.range'_succ, Nat.add_comm t.tokens.length 2, List.range'_append_1]
  rw [groups_lineItems, List.map_append, List.map_cons, hrange, ← hfields]
  rfl

variable {t}

/-- The group of a token. -/
theorem groups_token {k : Nat} {token : Token} (h : t.tokens[k]? = some token) :
    (Pattern.sequence ((lineItems t.pieces).map Item.pattern)).groups[k + 1]? =
      some (k + 2, token.readContent) := by
  have hlt : k < t.tokens.length := (List.getElem?_eq_some_iff.1 h).1
  rw [groups_lineItems, List.getElem?_append_left (by simpa using hlt), List.getElem?_cons_succ,
    List.getElem?_map, List.getElem?_zipIdx, h, Nat.add_comm k 2]
  rfl

variable (t)

/-- The groups behind those of the tokens. -/
theorem groups_behind (k : Nat) :
    (Pattern.sequence ((lineItems t.pieces).map Item.pattern)).groups[t.tokens.length + 1 + k]? =
      [(t.tokens.length + 2, Pattern.blanks),
        (t.tokens.length + 3, .firstOf (Template.levels.map .text)),
        (t.tokens.length + 4, .many Pattern.inLine)][k]? := by
  have hlength : ((1, Pattern.blanks) ::
      (t.tokens.zipIdx 2).map fun field => (field.2, field.1.readContent)).length =
        t.tokens.length + 1 := by simp
  rw [groups_lineItems, List.getElem?_append_right (by omega), hlength, Nat.add_sub_cancel_left]

end

end Compilation

namespace CompiledTemplate

open Compilation

/-- A compiled template numbers its groups as the index says, and matches as the template has it. -/
structure Agrees (x : CompiledTemplate) (t : Template) : Prop where
  tokens : x.tokens = t.tokens
  /-- The groups are numbered in the order in which they open. -/
  numbers : x.search.groups.map Prod.fst = List.range' 1 (t.tokens.length + 4)
  /-- Each token has a group of its own, behind that of the blanks in front. -/
  token : ∀ k token, t.tokens[k]? = some token →
    ∃ content : Pattern, x.search.groups[k + 1]? = some (k + 2, content) ∧
      content.Same token.content
  level : x.level = t.tokens.length + 3 ∧
    x.search.groups[t.tokens.length + 2]? =
      some (x.level, .firstOf (Template.levels.map .text))
  description : x.description = t.tokens.length + 4 ∧
    x.search.groups[t.tokens.length + 3]? = some (x.description, .many Pattern.inLine)
  /-- A slot has the group of the last token for it. -/
  index : ∀ slot group,
    x.index slot = some group ↔ ∃ k, group = k + 2 ∧ Template.IsLast slot t.tokens k
  /-- Records look for their fields in the same groups. -/
  record : (∀ slot, x.index slot = t.group? slot) ∧ x.level = t.levelGroup ∧
    x.description = t.descriptionGroup
  same : x.search.Same t.pattern
  /-- Described are the lines that show every literal as it is. -/
  reads : ∀ line rest, x.search.Reads line rest ↔
    rest = [] ∧ ∃ y : Layout, y.Fits t ∧ y.line = line

/-- A template is compiled into the parts of its lines. -/
theorem compile_eq {text : String} {t : Template} (ht : t.pieces = Piece.scan text.toList) :
    compile text = .ok ⟨.sequence ((lineItems t.pieces).map Item.pattern), t.group?,
      t.levelGroup, t.tokens⟩ := by
  obtain ⟨-, htokens, -, hindex⟩ :=
    foldl_add Compilation.start (Piece.scan text.toList)
  have hgroup : (ofString text).index = t.group? := by
    funext slot
    rw [ofString, hindex, Template.group?, Template.tokens, ht]
    cases Template.lastIndex? slot ((Piece.scan text.toList).filterMap Piece.token?) with
    | none => rfl
    | some last => exact congrArg some (Nat.add_comm 2 last)
  have htokens' : (ofString text).tokens = t.tokens := by
    rw [ofString, htokens, Template.tokens, ht]
    rfl
  rw [compile, read_expression (ht ▸ t.mayStop_once), hgroup, Compilation.level, htokens', ht]
  rfl

theorem agrees_of_compile {text : String} {t : Template} {x : CompiledTemplate}
    (ht : t.pieces = Piece.scan text.toList) (hx : compile text = .ok x) : x.Agrees t := by
  obtain rfl := Except.ok.inj ((compile_eq ht).symm.trans hx)
  have hsame := same_lineItems t
  refine ⟨rfl, numbers_lineItems t, ?_, ⟨rfl, ?_⟩, ⟨rfl, ?_⟩, ?_, ⟨fun _ => rfl, rfl, rfl⟩, hsame,
    ?_⟩
  · intro k token htoken
    exact ⟨token.readContent, groups_token htoken, token.same_content⟩
  · exact groups_behind t 1
  · exact groups_behind t 2
  · intro slot group
    change t.group? slot = some group ↔ _
    rw [Template.group?, Option.map_eq_some_iff]
    simp only [Template.lastIndex?_eq_some_iff]
    exact exists_congr fun k => ⟨fun h => ⟨h.2.symm, h.1⟩, fun h => ⟨h.2, h.1.symm⟩⟩
  · intro line rest
    rw [hsame.reads_iff, Template.reads_pattern_iff]

/-- A text compiles if and only if it opens the optional part at most once; otherwise a group is
left open. A compiled template numbers its groups as its index says, and matches as the template
has it. -/
theorem compile_correct (text : String) :
    ((∃ x, compile text = .ok x) ↔ (Piece.scan text.toList).count .mayStop ≤ 1) ∧
    (∀ cause, compile text = .error cause →
      cause = .unclosedGroup ∧ Template.ofString? text = .error .unclosedPart) ∧
    ∀ x, compile text = .ok x → ∃ t, Template.ofString? text = .ok t ∧ x.Agrees t := by
  by_cases hcount : (Piece.scan text.toList).count .mayStop ≤ 1
  · have ht : Template.ofString? text = .ok ⟨Piece.scan text.toList, hcount⟩ := by
      rw [Template.ofString?, dif_pos hcount]
    have hcompile := @compile_eq text ⟨Piece.scan text.toList, hcount⟩ rfl
    refine ⟨iff_of_true ⟨_, hcompile⟩ hcount, fun cause hcause => ?_, fun x hx => ?_⟩
    · rw [hcompile] at hcause
      exact absurd hcause (by simp)
    · exact ⟨_, ht, agrees_of_compile rfl hx⟩
  · have ht : Template.ofString? text = .error .unclosedPart := by
      rw [Template.ofString?, dif_neg hcount]
    have hcompile : compile text = .error .unclosedGroup := by
      rw [compile, read_expression_unclosed (Nat.lt_of_not_le hcount)]
      rfl
    refine ⟨iff_of_false ?_ hcount, fun cause hcause => ?_, fun x hx => ?_⟩
    · rintro ⟨x, hx⟩
      exact absurd (hcompile.symm.trans hx) (by simp)
    · exact ⟨Except.error.inj (hcause.symm.trans hcompile), ht⟩
    · exact absurd (hcompile.symm.trans hx) (by simp)

end CompiledTemplate

end LogAudit.Line
