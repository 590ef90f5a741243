/-!
The vocabulary of Java syntax trees: the kinds of nodes and the fields of their children. Only those
that the analysis tells apart have a constructor of their own.
-/
namespace NullGuard

inductive Kind where
  | lineComment
  | blockComment
  | classBody
  | interfaceBody
  | enumBody
  | annotationBody
  | method
  | constructor
  | formalParameter
  | spreadParameter
  | declarator
  | modifiers
  | integralType
  | floatingType
  | booleanType
  | block
  | constructorBody
  | switchGroup
  | ifStatement
  | returnStatement
  | parenthesized
  | unary
  | binary
  | invocation
  | creation
  | identifier
  | self
  | nullLiteral
  | stringLiteral
  | textBlock
  | bang
  | andAnd
  | orOr
  | equalEqual
  | bangEqual
  /-- Any other kind, by its name in the grammar. -/
  | other (name : String)
deriving DecidableEq, Repr

namespace Kind

/-- The grammar's name of a kind. -/
def name : Kind → String
  | lineComment => "line_comment"
  | blockComment => "block_comment"
  | classBody => "class_body"
  | interfaceBody => "interface_body"
  | enumBody => "enum_body"
  | annotationBody => "annotation_type_body"
  | method => "method_declaration"
  | constructor => "constructor_declaration"
  | formalParameter => "formal_parameter"
  | spreadParameter => "spread_parameter"
  | declarator => "variable_declarator"
  | modifiers => "modifiers"
  | integralType => "integral_type"
  | floatingType => "floating_point_type"
  | booleanType => "boolean_type"
  | block => "block"
  | constructorBody => "constructor_body"
  | switchGroup => "switch_block_statement_group"
  | ifStatement => "if_statement"
  | returnStatement => "return_statement"
  | parenthesized => "parenthesized_expression"
  | unary => "unary_expression"
  | binary => "binary_expression"
  | invocation => "method_invocation"
  | creation => "object_creation_expression"
  | identifier => "identifier"
  | self => "this"
  | nullLiteral => "null_literal"
  | stringLiteral => "string_literal"
  | textBlock => "text_block"
  | bang => "!"
  | andAnd => "&&"
  | orOr => "||"
  | equalEqual => "=="
  | bangEqual => "!="
  | other name => name

def ofName : String → Kind
  | "line_comment" => lineComment
  | "block_comment" => blockComment
  | "class_body" => classBody
  | "interface_body" => interfaceBody
  | "enum_body" => enumBody
  | "annotation_type_body" => annotationBody
  | "method_declaration" => method
  | "constructor_declaration" => constructor
  | "formal_parameter" => formalParameter
  | "spread_parameter" => spreadParameter
  | "variable_declarator" => declarator
  | "modifiers" => modifiers
  | "integral_type" => integralType
  | "floating_point_type" => floatingType
  | "boolean_type" => booleanType
  | "block" => block
  | "constructor_body" => constructorBody
  | "switch_block_statement_group" => switchGroup
  | "if_statement" => ifStatement
  | "return_statement" => returnStatement
  | "parenthesized_expression" => parenthesized
  | "unary_expression" => unary
  | "binary_expression" => binary
  | "method_invocation" => invocation
  | "object_creation_expression" => creation
  | "identifier" => identifier
  | "this" => self
  | "null_literal" => nullLiteral
  | "string_literal" => stringLiteral
  | "text_block" => textBlock
  | "!" => bang
  | "&&" => andAnd
  | "||" => orOr
  | "==" => equalEqual
  | "!=" => bangEqual
  | name => other name

theorem name_ofName (s : String) : (ofName s).name = s := by
  unfold ofName
  split <;> rfl

/-- Comments are named nodes that carry no code. -/
def isComment : Kind → Bool
  | lineComment | blockComment => true
  | _ => false

/-- The bodies of types, in which methods are declared. -/
def isTypeBody : Kind → Bool
  | classBody | interfaceBody | enumBody | annotationBody => true
  | _ => false

/-- Declarations with parameters of their own. -/
def isMethod : Kind → Bool
  | method | constructor => true
  | _ => false

/-- Types whose values are never references. -/
def isPrimitive : Kind → Bool
  | integralType | floatingType | booleanType => true
  | _ => false

/-- Nodes whose children are statements in sequence. -/
def isStatementList : Kind → Bool
  | block | constructorBody | switchGroup => true
  | _ => false

/-- Literals that can run over several lines, which are then part of their value. -/
def isText : Kind → Bool
  | stringLiteral | textBlock => true
  | _ => false

end Kind

/-- The role of a node in its parent. -/
inductive Field where
  | name
  | type
  | dimensions
  | parameters
  | body
  | condition
  | consequence
  | alternative
  | operator
  | operand
  | left
  | right
  | object
  | arguments
  | other (name : String)
deriving DecidableEq, Repr

namespace Field

def ofName : String → Field
  | "name" => .name
  | "type" => type
  | "dimensions" => dimensions
  | "parameters" => parameters
  | "body" => body
  | "condition" => condition
  | "consequence" => consequence
  | "alternative" => alternative
  | "operator" => operator
  | "operand" => operand
  | "left" => left
  | "right" => right
  | "object" => object
  | "arguments" => arguments
  | text => other text

end Field

end NullGuard
