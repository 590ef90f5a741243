import NullGuard.Proofs.Preorder
import NullGuard.Proofs.Reindentation
import NullGuard.Repair.Plan

/-!
Literals survive a repair. The lines of a literal are part of its value, so they do not move with the
statement around them: of the branch that a repair keeps, every literal that runs over several lines
stands in the replacement byte for byte.
-/
namespace NullGuard

/-! Children in order. -/

namespace Node.InOrder

variable {start stop : Nat} {ns : List Node} {n first last : Node}

theorem filter (ordered : InOrder start stop ns) (keep : Node → Bool) :
    InOrder start stop (ns.filter keep) := by
  induction ns generalizing start with
  | nil => trivial
  | cons n ns ih =>
    obtain ⟨lower, upper, nested, rest⟩ := ordered
    have below := ih rest
    cases kept : keep n with
    | true =>
      rw [List.filter_cons_of_pos kept]
      exact ⟨lower, upper, nested, below⟩
    | false =>
      have none : InOrder start n.span.stop [] := trivial
      rw [List.filter_cons_of_neg (by simp [kept])]
      exact none.append below (Nat.le_trans lower nested.proper) upper

theorem start_le (ordered : InOrder start stop ns) (head : ns.head? = some first) (member : n ∈ ns) :
    first.span.start ≤ n.span.start := by
  cases ns with
  | nil => cases head
  | cons m ns =>
    cases head
    obtain ⟨-, -, nested, rest⟩ := ordered
    rcases List.mem_cons.1 member with rfl | member
    · exact Nat.le_refl _
    · exact Nat.le_trans nested.proper (rest.of_mem member).1

theorem le_stop (ordered : InOrder start stop ns) (final : ns.getLast? = some last) (member : n ∈ ns) :
    n.span.stop ≤ last.span.stop := by
  induction ns generalizing start with
  | nil => cases member
  | cons m ns ih =>
    obtain ⟨-, -, -, rest⟩ := ordered
    cases ns with
    | nil =>
      obtain rfl : m = last := by simpa using final
      rw [List.mem_singleton.1 member]
    | cons k ns =>
      rw [List.getLast?_cons_cons] at final
      rcases List.mem_cons.1 member with rfl | member
      · obtain ⟨after, -, nested⟩ := rest.of_mem (List.mem_of_getLast? final)
        exact Nat.le_trans after nested.proper
      · exact ih rest final member

end Node.InOrder

/-- A place reaches the same nodes whatever is above it. -/
theorem Place.Reaches.under {p q : Place} (reaches : p.Reaches q) (above : List Node) :
    Place.Reaches ⟨p.node, p.above ++ above⟩ ⟨q.node, q.above ++ above⟩ := by
  refine Relation.ReflTransGen.lift (fun r : Place => Place.mk r.node (r.above ++ above)) ?_ _ _ reaches
  intro r child below
  obtain ⟨n, among, rfl⟩ := List.mem_map.1 below
  exact List.mem_map.2 ⟨n, among, rfl⟩

theorem CompilationUnit.mem_places_of_branch {u : CompilationUnit} {p q : Place} (met : p ∈ u.places)
    {branch : Node} (among : branch ∈ p.node.children) (below : q ∈ branch.places) :
    ⟨q.node, q.above ++ p.node :: p.above⟩ ∈ u.places := by
  have child : ⟨branch, p.node :: p.above⟩ ∈ u.places :=
    mem_places_of_children met (List.mem_map_of_mem among)
  have reaches := (Node.mem_places_iff.1 below).under (p.node :: p.above)
  exact mem_places_iff.2 ((mem_places_iff.1 child).trans reaches)

/-- What a parser promises of tokens and literals: a token holds no nodes and is no literal, and a literal
begins with a byte that is no blank. -/
structure SyntaxTree.Lexical (tree : SyntaxTree) (source : Bytes) : Prop where
  token : ∀ p ∈ tree.root.places, p.node.named = false →
    p.node.children = [] ∧ p.node.kind.isText = false
  literal : ∀ p ∈ tree.root.places, p.node.kind.isText = true →
    source.solidAt p.node.span.start = true

namespace CompilationUnit

variable {u : CompilationUnit} {p q : Place} {value : Bool} {branch : Node} {code : Span}

/-- The branch that is kept is a child of the statement, and unless all of it is kept, its named children
are. -/
theorem kept?_eq_some (kept : p.kept? value = some (branch, code)) :
    branch ∈ p.node.children ∧
      (code = branch.span ∨ branch.kind = .block ∧
        ∃ first last, branch.namedChildren.head? = some first ∧
          branch.namedChildren.getLast? = some last ∧ code = ⟨first.span.start, last.span.stop⟩) := by
  obtain ⟨found, hit, kept⟩ := Option.bind_eq_some_iff.1 kept
  have among := List.mem_of_find?_eq_some hit
  split at kept
  next opened =>
    obtain ⟨first, head, kept⟩ := Option.bind_eq_some_iff.1 kept
    obtain ⟨last, final, kept⟩ := Option.bind_eq_some_iff.1 kept
    cases kept
    have block : branch.kind = .block := by
      simp only [Bool.and_eq_true, decide_eq_true_eq] at opened
      exact opened.1
    exact ⟨among, .inr ⟨block, first, last, head, final, rfl⟩⟩
  next =>
    cases kept
    exact ⟨among, .inl rfl⟩

/-- A literal of the branch that is kept lies in the code that is kept. -/
theorem within_of_kept? (nested : u.WellNested) (lexical : u.tree.Lexical u.source) (met : p ∈ u.places)
    (kept : p.kept? value = some (branch, code)) (below : q ∈ branch.places)
    (literal : q.node.kind.isText = true) :
    code.start ≤ q.node.span.start ∧ q.node.span.stop ≤ code.stop := by
  obtain ⟨among, branches⟩ := kept?_eq_some kept
  obtain ⟨-, -, inner⟩ := (nested.of_mem_places met).1.child among
  have reaches := Node.mem_places_iff.1 below
  rcases branches with whole | ⟨block, first, last, head, final, rfl⟩
  · rw [whole]
    exact ⟨(reaches.within inner).1, (reaches.within inner).2.1⟩
  · have ordered := inner.inOrder.filter (·.named)
    -- The literal is not the block, so it is at or below a child of it, which is no token.
    rcases Relation.ReflTransGen.cases_head reaches with rfl | ⟨child, step, reaches⟩
    · simp [block, Kind.isText] at literal
    obtain ⟨n, held, rfl⟩ := List.mem_map.1 step
    obtain ⟨-, -, proper⟩ := inner.child held
    have inside := Place.Reaches.within reaches proper
    have named : n.named = true := by
      by_contra token
      have place := mem_places_of_branch met among (Node.mem_places_iff.2 (.single step))
      obtain ⟨leaf, noText⟩ := lexical.token _ place (by simpa using token)
      rcases Relation.ReflTransGen.cases_head reaches with rfl | ⟨next, step, -⟩
      · rw [literal] at noText
        cases noText
      · rw [Place.children, leaf] at step
        cases step
    have member : n ∈ branch.namedChildren := List.mem_filter.2 ⟨held, named⟩
    have lower := ordered.start_le head member
    have upper := ordered.le_stop final member
    exact ⟨Nat.le_trans lower inside.1, Nat.le_trans inside.2.1 upper⟩

theorem plan?_of_kept? {target : Target} (found : u.ifAt? target.span = some p)
    (known : target.value = some value) (kept : p.kept? value = some (branch, code)) :
    u.plan? target = some ⟨p.node.span, u.source.reindent code (u.source.indentAt code.start)
      (u.source.indentAt p.node.span.start) (branch.literals u.source)⟩ := by
  rw [plan?, found, known]
  simp only [Option.bind_eq_bind, Option.bind_some, Place.repair, kept]
  rfl

end CompilationUnit

theorem Bytes.newline_not_mem_indentAt (source : Bytes) (pos : Nat) :
    newline ∉ source.indentAt pos := fun member =>
  source.newline_not_mem_lineBefore pos (List.takeWhile_subset _ member)

/-- Lines that move leave a literal as it is, with the same code around it on as many lines. So a repair
leaves the literals as they are that run over several lines and lie in the code it keeps; and where the
parser keeps its promises, those are all such literals of the branch it keeps. -/
theorem literals_survive :
    (∀ (source : Bytes) (span : Span) (base indent : Bytes) (literals : List Span),
      base.all Bytes.isBlank = true → indent.all Bytes.isBlank = true → Bytes.newline ∉ indent →
      ∀ part ∈ literals, span.start ≤ part.start → part.start < part.stop → part.stop ≤ span.stop →
        source.solidAt part.start = true →
        source.Keeps span part (source.reindent span base indent literals)) ∧
      ∀ (u : CompilationUnit) (target : Target) (p : Place) (value : Bool) (branch : Node) (code : Span),
        u.ifAt? target.span = some p → target.value = some value →
        p.kept? value = some (branch, code) →
        ∃ edit, u.plan? target = some edit ∧
          (∀ part ∈ branch.literals u.source, code.start ≤ part.start → part.start < part.stop →
            part.stop ≤ code.stop → u.source.solidAt part.start = true →
            u.source.Keeps code part edit.replacement) ∧
          (u.WellNested → u.tree.Lexical u.source →
            ∀ q ∈ branch.places, q.node.kind.isText = true →
              u.source.row q.node.span.start ≠ u.source.row q.node.span.stop →
              u.source.Keeps code q.node.span edit.replacement) := by
  refine ⟨fun source span base indent literals blankBase blankIndent plain part => ?_,
    fun u target p value branch code found known kept => ?_⟩
  · exact Bytes.reindent_keeps blankBase blankIndent plain
  refine ⟨_, CompilationUnit.plan?_of_kept? found known kept, fun part => ?_,
    fun nested lexical q below literal rows => ?_⟩
  · exact Bytes.reindent_keeps (u.source.all_isBlank_indentAt _) (u.source.all_isBlank_indentAt _)
      (u.source.newline_not_mem_indentAt _)
  · have met : p ∈ u.places := List.mem_of_find?_eq_some found
    have place := CompilationUnit.mem_places_of_branch met (CompilationUnit.kept?_eq_some kept).1 below
    obtain ⟨lower, upper⟩ := CompilationUnit.within_of_kept? nested lexical met kept below literal
    have proper : q.node.span.start ≤ q.node.span.stop := (nested.of_mem_places place).1.proper
    have nonempty : q.node.span.start < q.node.span.stop := by
      refine Nat.lt_of_le_of_ne proper fun same => rows ?_
      rw [same]
    have member : q.node.span ∈ branch.literals u.source :=
      List.mem_map_of_mem (List.mem_filter.2 ⟨below, by simp [literal, rows]⟩)
    have solid := lexical.literal _ place literal
    exact Bytes.reindent_keeps (u.source.all_isBlank_indentAt _) (u.source.all_isBlank_indentAt _)
      (u.source.newline_not_mem_indentAt _) member lower nonempty upper solid

/-- Only literals need to be asked how many lines they run over. -/
theorem Node.literals_eq (n : Node) (source : Bytes) :
    n.literals source = ((n.places.filter (·.node.kind.isText)).filter fun p =>
      source.row p.node.span.start != source.row p.node.span.stop).map (·.node.span) := by
  rw [literals, List.filter_filter]
  simp only [Bool.and_comm]

/-- The promises can be looked at, place by place. -/
theorem SyntaxTree.Lexical.of_all {tree : SyntaxTree} {source : Bytes}
    (token : (tree.root.places.all fun p =>
      p.node.named || (p.node.children.isEmpty && !p.node.kind.isText)) = true)
    (literal : ((tree.root.places.filter (·.node.kind.isText)).all fun p =>
      source.solidAt p.node.span.start) = true) : tree.Lexical source := by
  refine ⟨fun p met unnamed => ?_, fun p met text => ?_⟩
  · simpa [unnamed] using List.all_eq_true.1 token p met
  · exact List.all_eq_true.1 literal p (List.mem_filter.2 ⟨met, text⟩)

/-- A literal over three lines, with nodes around it up to the block that a check guards. -/
def quotedLiteral : Node := .mk { kind := .stringLiteral } ⟨23, 44⟩ []

def quotedStatement : Node := .mk { kind := .other "expression_statement" } ⟨19, 45⟩ [quotedLiteral]

def quotedBlock : Node :=
  .mk { kind := .block, field := some .consequence } ⟨11, 58⟩ [
    quotedStatement, .mk { kind := .other "expression_statement" } ⟨52, 54⟩ []]

def quotedCheck : Node := .mk { kind := .ifStatement } ⟨4, 58⟩ [quotedBlock]

def quotedTree : Node := .mk { kind := .block } ⟨0, 60⟩ [quotedCheck]

def quotedUnit : CompilationUnit where
  source := ["\x7b\n  if (a) \x7b\n      s = \"\"\"\n", "   x\n        y\"\"\";\n      t;\n  \x7d\n\x7d"].flatMap
    (·.toList.map Char.toUInt8)
  tree.root := quotedTree

theorem quotedUnit_wellNested : quotedUnit.WellNested := by
  have root : quotedTree.WellNested := by
    simp [quotedTree, quotedCheck, quotedBlock, quotedStatement, quotedLiteral, Node.WellNested,
      Node.InOrder, Node.span]
  exact ⟨root, by decide +kernel⟩

theorem quotedUnit_lexical : quotedUnit.tree.Lexical quotedUnit.source :=
  .of_all (by decide +kernel) (by decide +kernel)

/-- The second statement moves from six blanks to two, or to a tab. The lines of the literal begin with
three and with eight blanks, before and after. -/
theorem literals_survive_quotedUnit :
    quotedUnit.WellNested ∧ quotedUnit.tree.Lexical quotedUnit.source ∧
      ∃ edit, quotedUnit.plan? ⟨⟨4, 58⟩, some true⟩ = some edit ∧
        edit.replacement = "s = \"\"\"\n   x\n        y\"\"\";\n  t;".toList.map Char.toUInt8 ∧
        quotedUnit.source.Keeps ⟨19, 54⟩ ⟨23, 44⟩ edit.replacement ∧
        quotedUnit.source.Keeps ⟨19, 54⟩ ⟨23, 44⟩ (quotedUnit.source.reindent ⟨19, 54⟩
          (List.replicate 6 0x20) [0x09] [⟨23, 44⟩]) := by
  have found : quotedUnit.ifAt? ⟨4, 58⟩ = some ⟨quotedCheck, [quotedTree]⟩ := by decide +kernel
  have kept : Place.kept? ⟨quotedCheck, [quotedTree]⟩ true = some (quotedBlock, ⟨19, 54⟩) := by decide +kernel
  have listed : quotedBlock.places.find? (·.node.kind.isText) =
      some ⟨quotedLiteral, [quotedStatement, quotedBlock]⟩ := by decide +kernel
  have rows : quotedUnit.source.row 23 = 2 ∧ quotedUnit.source.row 44 = 4 := by decide +kernel
  have text : quotedUnit.source.reindent ⟨19, 54⟩ (quotedUnit.source.indentAt 19)
      (quotedUnit.source.indentAt 4) (quotedBlock.literals quotedUnit.source) =
      "s = \"\"\"\n   x\n        y\"\"\";\n  t;".toList.map Char.toUInt8 := by
    rw [Node.literals_eq]
    decide +kernel
  have known : Target.value ⟨⟨4, 58⟩, some true⟩ = some true := rfl
  have planned := CompilationUnit.plan?_of_kept? found known kept
  obtain ⟨edit, plan, -, keeps⟩ := literals_survive.2 quotedUnit ⟨⟨4, 58⟩, some true⟩ _ true _ _
    found known kept
  have literal := keeps quotedUnit_wellNested quotedUnit_lexical _ (List.mem_of_find?_eq_some listed) rfl
    (by rw [quotedLiteral, Node.span, rows.1, rows.2]; decide)
  have solid : quotedUnit.source.solidAt 23 = true := by decide
  have tabbed := literals_survive.1 quotedUnit.source ⟨19, 54⟩ (List.replicate 6 0x20) [0x09] [⟨23, 44⟩]
    (by decide) (by decide) (by decide) ⟨23, 44⟩ (List.mem_singleton_self _) (by decide) (by decide)
    (by decide) solid
  cases plan.symm.trans planned
  exact ⟨quotedUnit_wellNested, quotedUnit_lexical, _, planned, text, literal, tabbed⟩

end NullGuard
