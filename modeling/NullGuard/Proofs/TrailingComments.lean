import NullGuard.Proofs.Levels
import NullGuard.Proofs.Literals
import NullGuard.Repair.Fix

/-!
Line comments at the end of a block. A block that gives up its braces ends with its last named child. If
that is a line comment, the brace that stood on a line of its own no longer parts it from what follows
the statement, and nothing is put in the place of the brace: whatever follows on the line becomes part of
the comment. So a repair is safe there exactly where nothing but blanks follows.
-/
namespace NullGuard

/-- What a parser promises of line comments: they are not empty, begin with a byte that is no blank, and
end before the line feed. -/
def SyntaxTree.LineComments (tree : SyntaxTree) (source : Bytes) : Prop :=
  ∀ p ∈ tree.root.places, p.node.kind = .lineComment →
    p.node.span.start < p.node.span.stop ∧ source.solidAt p.node.span.start = true ∧
      Bytes.newline ∉ source.at p.node.span

/-- The repair of a statement opens a block of which a line comment is the last named child. -/
structure Place.OpensOnComment (p : Place) (value : Bool) (block comment : Node) : Prop where
  branch : p.node.child? (if value then .consequence else .alternative) = some block
  kind : block.kind = .block
  sequence : p.inSequence = true
  last : block.namedChildren.getLast? = some comment
  isComment : comment.kind = .lineComment

/-- Nothing but blanks follows the edit on its line, or the replacement ends with a line feed. -/
def Edit.EndsLine (edit : Edit) (source : Bytes) : Prop :=
  (source.lineAfter edit.span.stop).all Bytes.isBlank = true ∨
    edit.replacement.getLast? = some Bytes.newline

instance (edit : Edit) (source : Bytes) : Decidable (edit.EndsLine source) :=
  inferInstanceAs (Decidable (_ ∨ _))

/-- After an edit, the line on from the last part of the replacement, if that is on one line, goes on with
what followed the edit on its line. -/
theorem Edit.lineAfter_apply {edit : Edit} {source before last : Bytes}
    (inside : edit.span.start ≤ source.length) (made : edit.replacement = before ++ last)
    (line : Bytes.newline ∉ last) :
    (edit.apply source).lineAfter (edit.span.start + before.length) =
      last ++ source.lineAfter edit.span.stop := by
  have length : (source.take edit.span.start ++ before).length = edit.span.start + before.length := by
    rw [List.length_append, List.length_take_of_le inside]
  have split : edit.apply source =
      (source.take edit.span.start ++ before) ++ (last ++ source.drop edit.span.stop) := by
    rw [apply, made]
    simp only [List.append_assoc]
  rw [Bytes.lineAfter, split, List.drop_left' length, Bytes.lineAfter]
  refine List.takeWhile_append_of_pos fun b member => ?_
  have differ : b ≠ Bytes.newline := fun same => line (same ▸ member)
  simpa using differ

namespace Place.OpensOnComment

variable {p : Place} {value : Bool} {block comment : Node}

/-- The code that is kept runs from the first named child of the block to the end of the comment. -/
theorem kept? (opens : p.OpensOnComment value block comment) :
    ∃ first, block.namedChildren.head? = some first ∧
      p.kept? value = some (block, ⟨first.span.start, comment.span.stop⟩) := by
  obtain ⟨first, head⟩ : ∃ first, block.namedChildren.head? = some first := by
    cases named : block.namedChildren with
    | nil =>
      have last := opens.last
      rw [named] at last
      cases last
    | cons first rest => exact ⟨first, rfl⟩
  refine ⟨first, head, ?_⟩
  simp [Place.kept?, opens.branch, opens.kind, opens.sequence, opens.last, head]

end Place.OpensOnComment

/-- Where a repair opens a block that ends with a line comment, the replacement ends with the comment. In
the repaired source the line of the comment goes on with all that followed the statement on its line; so
code is kept out of the comment exactly if nothing but blanks follows. -/
theorem lineAfter_opened (u : CompilationUnit) (nested : u.WellNested)
    (comments : u.tree.LineComments u.source) (target : Target) (p : Place) (value : Bool)
    (block comment : Node) (found : u.ifAt? target.span = some p) (known : target.value = some value)
    (opens : p.OpensOnComment value block comment) :
    ∃ edit before, u.plan? target = some edit ∧ edit.span = p.node.span ∧
      edit.replacement = before ++ u.source.at comment.span ∧
      (∀ first, block.namedChildren.head? = some first →
        before.SameCode (u.source.slice first.span.start comment.span.start)) ∧
      (edit.apply u.source).lineAfter (edit.span.start + before.length) =
        u.source.at comment.span ++ u.source.lineAfter edit.span.stop ∧
      (edit.EndsLine u.source ↔ (u.source.lineAfter edit.span.stop).all Bytes.isBlank = true) := by
  have met : p ∈ u.places := List.mem_of_find?_eq_some found
  obtain ⟨whole, inside⟩ := nested.of_mem_places met
  have among : block ∈ p.node.children := List.mem_of_find?_eq_some opens.branch
  obtain ⟨-, -, inner⟩ := whole.child among
  have member : comment ∈ block.namedChildren := List.mem_of_getLast? opens.last
  have child := CompilationUnit.mem_places_of_children
    (CompilationUnit.mem_places_of_children met (List.mem_map_of_mem among))
    (List.mem_map_of_mem (List.mem_filter.1 member).1)
  obtain ⟨nonempty, solid, line⟩ := comments _ child opens.isComment
  obtain ⟨first, head, kept⟩ := opens.kept?
  have lower : first.span.start ≤ comment.span.start :=
    (inner.inOrder.filter (·.named)).start_le head member
  obtain ⟨before, front, text⟩ := Bytes.reindent_keeps_end (u.source.all_isBlank_indentAt _)
    (u.source.all_isBlank_indentAt _) (u.source.newline_not_mem_indentAt _) lower nonempty solid line
  refine ⟨_, before, CompilationUnit.plan?_of_kept? found known kept, rfl, text, ?_, ?_, ?_⟩
  · intro other head'
    cases head.symm.trans head'
    exact front
  · exact Edit.lineAfter_apply (Nat.le_trans whole.proper inside) text line
  · have filled : u.source.at comment.span ≠ [] := by
      obtain ⟨b, found, -⟩ := (Option.any_eq_true _ _).1 solid
      rw [Bytes.at, Bytes.slice_eq_cons found nonempty]
      exact List.cons_ne_nil _ _
    refine or_iff_left fun feed => line ?_
    rw [text, List.getLast?_append_of_ne_nil _ filled] at feed
    exact List.mem_of_getLast? feed

/-- The promise can be looked at, comment by comment. -/
theorem SyntaxTree.LineComments.of_all {tree : SyntaxTree} {source : Bytes}
    (all : ((tree.root.places.filter (·.node.kind = .lineComment)).all fun p =>
      p.node.span.start < p.node.span.stop && source.solidAt p.node.span.start &&
        !(source.at p.node.span).contains Bytes.newline) = true) : tree.LineComments source := by
  intro p met isComment
  have looked := List.all_eq_true.1 all p (List.mem_filter.2 ⟨met, by simp [isComment]⟩)
  simpa [and_assoc] using looked

/-- The comment at the end of a block whose brace is followed by a call. -/
def trailingComment : Node := .mk { kind := .lineComment } ⟨51, 55⟩ []

def trailingBlock : Node :=
  .mk { kind := .block, field := some .consequence } ⟨44, 58⟩ [
    .mk { kind := .other "expression_statement" } ⟨46, 50⟩ [
      .mk { kind := .invocation } ⟨46, 49⟩ [
        .mk { kind := .identifier, field := some .name } ⟨46, 47⟩ [],
        .mk { kind := .other "argument_list", field := some .arguments } ⟨47, 49⟩ []]],
    trailingComment]

def trailingCheck : Node :=
  .mk { kind := .ifStatement } ⟨29, 58⟩ [
    .mk { kind := .parenthesized, field := some .condition } ⟨32, 43⟩ [
      .mk { kind := .binary } ⟨33, 42⟩ [
        .mk { kind := .identifier, field := some .left } ⟨33, 34⟩ [],
        .mk { kind := .bangEqual, named := false, field := some .operator } ⟨35, 37⟩ [],
        .mk { kind := .nullLiteral, field := some .right } ⟨38, 42⟩ []]],
    trailingBlock]

def trailingBody : Node :=
  .mk { kind := .block, field := some .body } ⟨27, 65⟩ [
    trailingCheck,
    .mk { kind := .other "expression_statement" } ⟨59, 63⟩ [
      .mk { kind := .invocation } ⟨59, 62⟩ [
        .mk { kind := .identifier, field := some .name } ⟨59, 60⟩ [],
        .mk { kind := .other "argument_list", field := some .arguments } ⟨60, 62⟩ []]]]

def trailingMethod : Node :=
  .mk { kind := .method } ⟨10, 65⟩ [
    .mk { kind := .other "void_type", field := some .type } ⟨10, 14⟩ [],
    .mk { kind := .identifier, field := some .name } ⟨15, 16⟩ [],
    .mk { kind := .other "formal_parameters", field := some .parameters } ⟨16, 26⟩ [
      .mk { kind := .formalParameter } ⟨17, 25⟩ [
        .mk { kind := .other "type_identifier", field := some .type } ⟨17, 23⟩ [],
        .mk { kind := .identifier, field := some .name } ⟨24, 25⟩ []]],
    trailingBody]

def trailingClassBody : Node :=
  .mk { kind := .classBody, field := some .body } ⟨8, 67⟩ [trailingMethod]

def trailingClass : Node :=
  .mk { kind := .other "class_declaration" } ⟨0, 67⟩ [
    .mk { kind := .identifier, field := some .name } ⟨6, 7⟩ [],
    trailingClassBody]

def trailingTree : Node := .mk { kind := .other "program" } ⟨0, 67⟩ [trailingClass]

def trailingUnit : CompilationUnit where
  source := ["class A \x7b void m(Object o) \x7b if (o != null) ", "\x7b a(); // x\n \x7d b(); \x7d \x7d"].flatMap
    (·.toList.map Char.toUInt8)
  tree.root := trailingTree

/-- The check, with the nodes above it. -/
def trailingPlace : Place :=
  ⟨trailingCheck, [trailingBody, trailingMethod, trailingClassBody, trailingClass, trailingTree]⟩

theorem ifAt?_trailingUnit : trailingUnit.ifAt? ⟨29, 58⟩ = some trailingPlace := by decide +kernel

theorem trailingPlace_opensOnComment :
    trailingPlace.OpensOnComment true trailingBlock trailingComment :=
  ⟨rfl, rfl, rfl, rfl, rfl⟩

theorem trailingUnit_wellNested : trailingUnit.WellNested := by
  have root : trailingTree.WellNested := by
    simp [trailingTree, trailingClass, trailingClassBody, trailingMethod, trailingBody, trailingCheck,
      trailingBlock, trailingComment, Node.WellNested, Node.InOrder, Node.span]
  exact ⟨root, by decide +kernel⟩

theorem findings_trailingUnit :
    (trailingUnit.findings 30).map Finding.target = [⟨⟨29, 58⟩, some true⟩] := by
  rw [CompilationUnit.findings_eq_checkAt?]
  decide +kernel

theorem plan?_trailingUnit :
    trailingUnit.plan? ⟨⟨29, 58⟩, some true⟩ =
      some ⟨⟨29, 58⟩, "a(); // x".toList.map Char.toUInt8⟩ := by
  have kept : trailingPlace.kept? true = some (trailingBlock, ⟨46, 55⟩) := rfl
  have known : Target.value ⟨⟨29, 58⟩, some true⟩ = some true := rfl
  have text : trailingUnit.source.reindent ⟨46, 55⟩ (trailingUnit.source.indentAt 46)
      (trailingUnit.source.indentAt 29) (trailingBlock.literals trailingUnit.source) =
      "a(); // x".toList.map Char.toUInt8 := by
    rw [Node.literals_eq]
    decide +kernel
  exact (CompilationUnit.plan?_of_kept? ifAt?_trailingUnit known kept).trans
    (congrArg (fun text => some (Edit.mk ⟨29, 58⟩ text)) text)

/-- The check is reported and its repair opens a block that ends with a comment; a call follows on the
line of the brace, and after the repair the call is part of the comment, and so are the braces that end
the method and the class. -/
theorem not_endsLine_trailingUnit :
    (trailingUnit.findings 30).map Finding.target = [⟨⟨29, 58⟩, some true⟩] ∧
      trailingUnit.ifAt? ⟨29, 58⟩ = some trailingPlace ∧
      trailingPlace.OpensOnComment true trailingBlock trailingComment ∧
      ∃ edit, trailingUnit.plan? ⟨⟨29, 58⟩, some true⟩ = some edit ∧
        ¬ edit.EndsLine trailingUnit.source ∧
        edit.apply trailingUnit.source =
          "class A \x7b void m(Object o) \x7b a(); // x b(); \x7d \x7d".toList.map Char.toUInt8 := by
  refine ⟨findings_trailingUnit, ifAt?_trailingUnit, trailingPlace_opensOnComment, _,
    plan?_trailingUnit, by decide, by decide⟩

theorem trailingUnit_lineComments : trailingUnit.tree.LineComments trailingUnit.source :=
  .of_all (by decide +kernel)

/-- The line of the comment goes on with the call and the braces. -/
theorem lineAfter_opened_trailingUnit :
    trailingUnit.WellNested ∧ trailingUnit.tree.LineComments trailingUnit.source ∧
      ∃ edit before, trailingUnit.plan? ⟨⟨29, 58⟩, some true⟩ = some edit ∧
        edit.replacement = before ++ "// x".toList.map Char.toUInt8 ∧
        (edit.apply trailingUnit.source).lineAfter (29 + before.length) =
          "// x b(); \x7d \x7d".toList.map Char.toUInt8 := by
  have comment : trailingUnit.source.at trailingComment.span = "// x".toList.map Char.toUInt8 := by decide
  have rest : trailingUnit.source.lineAfter 58 = " b(); \x7d \x7d".toList.map Char.toUInt8 := by decide
  obtain ⟨edit, before, planned, place, text, -, line, -⟩ := lineAfter_opened trailingUnit
    trailingUnit_wellNested trailingUnit_lineComments ⟨⟨29, 58⟩, some true⟩ trailingPlace true
    trailingBlock trailingComment ifAt?_trailingUnit rfl trailingPlace_opensOnComment
  have span : edit.span = ⟨29, 58⟩ := place
  rw [span, comment, rest] at line
  rw [comment] at text
  exact ⟨trailingUnit_wellNested, trailingUnit_lineComments, edit, before, planned, text, line⟩

end NullGuard
