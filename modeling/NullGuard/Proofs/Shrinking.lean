import NullGuard.Proofs.Conservation
import NullGuard.Repair.Fix

/-!
A pass that repairs something leaves less code. Of an `if` statement the keyword and the condition are
lost, whichever branch is kept, and that is more than the two braces that may come in their place. As
the edits of a pass do not overlap, what is lost adds up. The length of the text is no measure of this,
as moved lines may grow; the bytes besides blanks are.
-/
namespace NullGuard

namespace Bytes

theorem solid_length_slice_le (source : Bytes) {start start' stop stop' : Nat} (lower : start ≤ start')
    (upper : stop' ≤ stop) :
    (source.slice start' stop').solid.length ≤ (source.slice start stop).solid.length := by
  by_cases proper : start' ≤ stop'
  · rw [← source.slice_append (Nat.le_trans lower proper) upper, ← source.slice_append lower proper]
    simp only [solid_append, List.length_append]
    omega
  · have empty : source.slice start' stop' = [] := by
      rw [slice_eq_take_drop, Nat.sub_eq_zero_of_le (by omega), List.take_zero]
    rw [empty]
    exact Nat.zero_le _

theorem solid_length_drop (source : Bytes) {pos start stop : Nat} (lower : pos ≤ start)
    (proper : start ≤ stop) (inside : stop ≤ source.length) :
    (solid (source.drop pos)).length = (source.slice pos start).solid.length +
      (source.slice start stop).solid.length + (solid (source.drop stop)).length := by
  have toEnd : ∀ first, source.drop first = source.slice first source.length := fun first => by
    rw [slice, List.take_length]
  rw [toEnd pos, toEnd stop, ← source.slice_append (Nat.le_trans lower proper) inside,
    ← source.slice_append lower proper]
  simp only [solid_append, List.length_append]

end Bytes

/-- The number of bytes of a node besides blanks, without the child that fills a field. -/
def Node.solidWithout (n : Node) (source : Bytes) (f : Field) : Nat :=
  match n.child? f with
  | some child => (source.slice n.span.start child.span.start).solid.length +
      (source.slice child.span.stop n.span.stop).solid.length
  | none => (source.at n.span).solid.length

/-- The statement has at least three bytes besides blanks, also without one of its branches. -/
def Node.Substantial (n : Node) (source : Bytes) : Prop :=
  3 ≤ (source.at n.span).solid.length ∧ 3 ≤ n.solidWithout source .consequence ∧
    3 ≤ n.solidWithout source .alternative

instance (n : Node) (source : Bytes) : Decidable (n.Substantial source) :=
  inferInstanceAs (Decidable (_ ∧ _ ∧ _))

/-- What a parser promises of the tree of a source: it is well nested and lies within the source, and
its `if` statements are substantial. -/
structure SyntaxTree.Regular (tree : SyntaxTree) (source : Bytes) : Prop where
  nested : tree.root.WellNested
  inside : tree.root.span.stop ≤ source.length
  substantial : ∀ p ∈ tree.root.places, p.node.kind = .ifStatement → p.node.Substantial source

theorem SyntaxTree.Regular.wellNested {u : CompilationUnit} (regular : u.tree.Regular u.source) :
    u.WellNested :=
  ⟨regular.nested, regular.inside⟩

namespace Node

theorem mem_children_of_child? {n child : Node} {f : Field} (found : n.child? f = some child) :
    child ∈ n.children :=
  List.mem_of_find?_eq_some found

/-- The bytes of a node are those of a child and those around it. -/
theorem solid_length_eq_solidWithout {n child : Node} (nested : n.WellNested) {f : Field}
    (found : n.child? f = some child) (source : Bytes) :
    (source.at n.span).solid.length =
      n.solidWithout source f + (source.at child.span).solid.length := by
  obtain ⟨lower, upper, proper⟩ := nested.child (mem_children_of_child? found)
  have before : n.span.start ≤ child.span.stop := Nat.le_trans lower proper.proper
  have split : source.at n.span = source.slice n.span.start child.span.start ++
      source.at child.span ++ source.slice child.span.stop n.span.stop := by
    rw [Bytes.at, Bytes.at, source.slice_append lower proper.proper,
      source.slice_append before upper]
  rw [solidWithout, found, split]
  simp only [Bytes.solid_append, List.length_append]
  omega

end Node

/-- Less is left of a substantial statement than it had. -/
theorem Repair.solid_remainder_lt {r : Repair} {source : Bytes}
    (nested : r.place.node.WellNested) (substantial : r.place.node.Substantial source) :
    (r.remainder source).solid.length < (source.at r.place.node.span).solid.length := by
  obtain ⟨whole, withoutConsequence, withoutAlternative⟩ := substantial
  have nothing : (Bytes.solid []).length < (source.at r.place.node.span).solid.length :=
    Nat.lt_of_lt_of_le (by decide) whole
  have braces : Place.emptyBlock.solid.length < (source.at r.place.node.span).solid.length :=
    Nat.lt_of_lt_of_le (by decide) whole
  unfold remainder
  cases found : r.place.node.child? (if r.value then .consequence else .alternative) with
  | none =>
    simp only
    split
    · exact nothing
    · exact braces
  | some branch =>
    have without : 3 ≤ r.place.node.solidWithout source
        (if r.value then .consequence else .alternative) := by
      cases r.value with
      | true => exact withoutConsequence
      | false => exact withoutAlternative
    have whole := Node.solid_length_eq_solidWithout nested found source
    obtain ⟨-, -, nested⟩ := nested.child (Node.mem_children_of_child? found)
    simp only
    split
    · -- Of a block that is opened, what stands between its first and its last child is left.
      cases named : branch.namedChildren with
      | nil => exact nothing
      | cons first rest =>
        have among : ∀ child ∈ first :: rest, child ∈ branch.children := fun child member =>
          (List.mem_filter.1 (named ▸ member : child ∈ branch.namedChildren)).1
        obtain ⟨lower, -⟩ := nested.child (among first List.mem_cons_self)
        obtain ⟨-, upper, -⟩ := nested.child (among _ List.getLastD_mem_cons)
        have part : (source.slice first.span.start (rest.getLastD first).span.stop).solid.length ≤
            (source.at branch.span).solid.length := source.solid_length_slice_le lower upper
        simp only
        omega
    · omega

namespace Edit

/-- Chained edits that each put in less code than they take out shorten the code by a byte each. -/
theorem solid_splice_add_length_le {source : Bytes} {pos : Nat} {edits : List Edit}
    (chained : Chained source pos edits)
    (less : ∀ edit ∈ edits, edit.replacement.solid.length < (source.at edit.span).solid.length) :
    (splice source pos edits).solid.length + edits.length ≤
      (Bytes.solid (source.drop pos)).length := by
  induction edits generalizing pos with
  | nil => exact Nat.le_refl _
  | cons edit rest ih =>
    obtain ⟨reached, proper, inside, chained⟩ := chained
    have below := ih chained fun other member => less other (List.mem_cons_of_mem edit member)
    have first := less edit List.mem_cons_self
    rw [source.solid_length_drop reached proper inside]
    simp only [splice, Bytes.solid_append, List.length_append, List.length_cons, Bytes.at] at first ⊢
    omega

theorem select_ne_nil {edits : List Edit} (some : edits ≠ []) : select edits ≠ [] := by
  have sorted : edits.mergeSort precedes ≠ [] := by
    rw [ne_eq, ← List.length_eq_zero_iff, List.length_mergeSort, List.length_eq_zero_iff]
    exact some
  obtain ⟨first, rest, same⟩ := List.exists_cons_of_ne_nil sorted
  rw [select, same]
  exact List.cons_ne_nil _ _

end Edit

namespace CompilationUnit

theorem solid_plain_lt {u : CompilationUnit} (regular : u.tree.Regular u.source) {target : Target}
    {r : Repair} (asks : u.Asks target r) :
    (r.plain u.source).replacement.solid.length <
      (u.source.at (r.plain u.source).span).solid.length := by
  have met : r.place ∈ u.places := List.mem_of_find?_eq_some asks.1
  have isIf : r.place.node.kind = .ifStatement := by
    have kind := List.find?_some asks.1
    simp only [Bool.and_eq_true, decide_eq_true_eq] at kind
    exact kind.1
  obtain ⟨nested, -⟩ := regular.wellNested.of_mem_places met
  exact Repair.solid_remainder_lt nested (regular.substantial r.place met isIf)

/-- Planned edits, if there are any, leave less code. -/
theorem solid_applyAll_lt {u : CompilationUnit} (regular : u.tree.Regular u.source)
    {targets : List Target} {edits : List Edit}
    (planned : ∀ edit ∈ edits, edit ∈ targets.filterMap u.plan?) (some : edits ≠ []) :
    (Edit.applyAll edits u.source).solid.length < u.source.solid.length := by
  have nested : u.WellNested := regular.wellNested
  have proper : ∀ edit ∈ edits,
      edit.span.start ≤ edit.span.stop ∧ edit.span.stop ≤ u.source.length :=
    fun edit member => nested.proper_of_plan? (planned edit member)
  -- Making edits selects among them, so the repairs are those of the selected ones only.
  have selected : ∀ edit ∈ Edit.select edits, edit ∈ targets.filterMap u.plan? :=
    fun edit member => planned edit (Edit.mem_select member)
  obtain ⟨kept, same, asked⟩ := exists_repairs selected
  have absorbs : ∀ r ∈ kept, Edit.Absorbs u.source (r.edit u.source) (r.plain u.source) := by
    intro r member
    obtain ⟨target, -, asks⟩ := asked r member
    exact nested.of_asks asks
  have less : ∀ edit ∈ kept.map (·.plain u.source),
      edit.replacement.solid.length < (u.source.at edit.span).solid.length := by
    intro edit member
    obtain ⟨r, among, rfl⟩ := List.mem_map.1 member
    obtain ⟨target, -, asks⟩ := asked r among
    exact solid_plain_lt regular asks
  have chained := Edit.chained_select proper
  rw [← same] at chained
  have plain := Edit.chained_of_absorbs _ _ absorbs (Nat.le_refl 0) chained
  have shorter := Edit.solid_splice_add_length_le plain less
  have made : 0 < kept.length := by
    have kept_ne := Edit.select_ne_nil some
    rw [← same] at kept_ne
    exact List.length_pos_iff.2 fun none => kept_ne (by rw [none, List.map_nil])
  rw [Edit.applyAll_eq_splice proper, ← same,
    Edit.solid_splice _ _ absorbs (Nat.le_refl 0) rfl chained]
  rw [List.length_map, List.drop_zero] at shorter
  omega

end CompilationUnit

end NullGuard
