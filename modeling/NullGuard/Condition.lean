import NullGuard.Expr
import NullGuard.CallSite

/-!
Expressions read off the tree. The shapes that a valuation understands keep their structure, with
comments left out; an identifier is a parameter if it names one whose values are references; anything
else is kept as text only.
-/
namespace NullGuard

abbrev Condition := Expr Param CallSite

def Node.operator? (n : Node) : Option Kind := (n.child? .operator).map (·.kind)

/-- The binary operators that conditions are made of. -/
def Condition.binary? (operator : Kind) (left right : Condition) : Option Condition :=
  match operator with
  | .andAnd => some (.connect .and left right)
  | .orOr => some (.connect .or left right)
  | .equalEqual => some (.compare left right false)
  | .bangEqual => some (.compare left right true)
  | _ => none

namespace CompilationUnit

mutual

/-- The expression at a node below the nodes `above`. -/
def condition (u : CompilationUnit) (above : List Node) : Node → Condition
  | .mk label span children =>
    let n := Node.mk label span children
    let text : Condition := .other (u.text n)
    match label.kind with
    | .parenthesized =>
      match u.conditions (n :: above) children with
      | [inner] => .paren inner
      | _ => text
    | .unary =>
      match n.operator?, u.conditionIn (n :: above) .operand children with
      | some .bang, some operand => .not operand
      | _, _ => text
    | .binary =>
      match n.operator?, u.conditionIn (n :: above) .left children,
        u.conditionIn (n :: above) .right children with
      | some operator, some left, some right => (Condition.binary? operator left right).getD text
      | _, _, _ => text
    | .nullLiteral => .null
    | .identifier =>
      match u.paramNamed? above n with
      | some p => if p.isReference then .param p else text
      | none => text
    | .invocation => .call (u.callSite above n) (u.arguments (n :: above) children)
    | _ => text
termination_by structural n => n

/-- The expressions at the nodes that carry code. -/
def conditions (u : CompilationUnit) (above : List Node) : List Node → List Condition
  | [] => []
  | n :: rest =>
    if n.isCode then u.condition above n :: u.conditions above rest else u.conditions above rest

/-- The expression at the first node that fills a field. -/
def conditionIn (u : CompilationUnit) (above : List Node) (f : Field) :
    List Node → Option Condition
  | [] => none
  | n :: rest =>
    if n.field = some f then some (u.condition above n) else u.conditionIn above f rest

/-- The arguments in the first node that fills the field for them. -/
def arguments (u : CompilationUnit) (above : List Node) : List Node → List Condition
  | [] => []
  | .mk label span children :: rest =>
    if label.field = some .arguments then u.conditions (.mk label span children :: above) children
    else u.arguments above rest

end

def conditionAt (u : CompilationUnit) (p : Place) : Condition := u.condition p.above p.node

end CompilationUnit

end NullGuard
