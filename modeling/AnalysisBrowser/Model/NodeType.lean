/-!
# Node types

The types of nodes that the analyzer is known to emit, with their names, labels and groups. A node
may carry a type that is not among them.
-/
namespace AnalysisBrowser

/-- The known types of nodes. -/
inductive NodeType where
  | program
  | variableDeclaration
  | functionDeclaration
  | classDeclaration
  | interfaceDeclaration
  | expression
  | binaryExpression
  | unaryExpression
  | callExpression
  | memberExpression
  | literalExpression
  | identifierExpression
  | statement
  | blockStatement
  | ifStatement
  | forStatement
  | whileStatement
  | returnStatement
  | expressionStatement
  | typeAscription
  | primitiveType
  | arrayType
  | functionType
  | syntaxError
  deriving DecidableEq, Repr

/-- The groups of node types. -/
inductive NodeCategory where
  | program
  | declaration
  | expression
  | statement
  | type
  | error
  deriving DecidableEq, Repr

/-- The name of a group. -/
def NodeCategory.name : NodeCategory → String
  | .program => "program"
  | .declaration => "declaration"
  | .expression => "expression"
  | .statement => "statement"
  | .type => "type"
  | .error => "error"

namespace NodeType

def all : List NodeType :=
  [.program, .variableDeclaration, .functionDeclaration, .classDeclaration, .interfaceDeclaration,
    .expression, .binaryExpression, .unaryExpression, .callExpression, .memberExpression,
    .literalExpression, .identifierExpression, .statement, .blockStatement, .ifStatement,
    .forStatement, .whileStatement, .returnStatement, .expressionStatement, .typeAscription,
    .primitiveType, .arrayType, .functionType, .syntaxError]

/-- The name of a type in JSON. -/
def name : NodeType → String
  | .program => "PROGRAM"
  | .variableDeclaration => "VARIABLE_DECLARATION"
  | .functionDeclaration => "FUNCTION_DECLARATION"
  | .classDeclaration => "CLASS_DECLARATION"
  | .interfaceDeclaration => "INTERFACE_DECLARATION"
  | .expression => "EXPRESSION"
  | .binaryExpression => "BINARY_EXPRESSION"
  | .unaryExpression => "UNARY_EXPRESSION"
  | .callExpression => "CALL_EXPRESSION"
  | .memberExpression => "MEMBER_EXPRESSION"
  | .literalExpression => "LITERAL_EXPRESSION"
  | .identifierExpression => "IDENTIFIER_EXPRESSION"
  | .statement => "STATEMENT"
  | .blockStatement => "BLOCK_STATEMENT"
  | .ifStatement => "IF_STATEMENT"
  | .forStatement => "FOR_STATEMENT"
  | .whileStatement => "WHILE_STATEMENT"
  | .returnStatement => "RETURN_STATEMENT"
  | .expressionStatement => "EXPRESSION_STATEMENT"
  | .typeAscription => "TYPE_ANNOTATION"
  | .primitiveType => "PRIMITIVE_TYPE"
  | .arrayType => "ARRAY_TYPE"
  | .functionType => "FUNCTION_TYPE"
  | .syntaxError => "SYNTAX_ERROR"

/-- The name of a type for readers. -/
def label : NodeType → String
  | .program => "Program"
  | .variableDeclaration => "Variable declaration"
  | .functionDeclaration => "Function declaration"
  | .classDeclaration => "Class declaration"
  | .interfaceDeclaration => "Interface declaration"
  | .expression => "Expression"
  | .binaryExpression => "Binary expression"
  | .unaryExpression => "Unary expression"
  | .callExpression => "Function call"
  | .memberExpression => "Member access"
  | .literalExpression => "Literal"
  | .identifierExpression => "Identifier"
  | .statement => "Statement"
  | .blockStatement => "Block"
  | .ifStatement => "If statement"
  | .forStatement => "For loop"
  | .whileStatement => "While loop"
  | .returnStatement => "Return"
  | .expressionStatement => "Expression statement"
  | .typeAscription => "Type annotation"
  | .primitiveType => "Primitive type"
  | .arrayType => "Array type"
  | .functionType => "Function type"
  | .syntaxError => "Syntax error"

/-- The group of a type. -/
def category : NodeType → NodeCategory
  | .program => .program
  | .variableDeclaration | .functionDeclaration | .classDeclaration
  | .interfaceDeclaration => .declaration
  | .expression | .binaryExpression | .unaryExpression | .callExpression | .memberExpression
  | .literalExpression | .identifierExpression => .expression
  | .statement | .blockStatement | .ifStatement | .forStatement | .whileStatement
  | .returnStatement | .expressionStatement => .statement
  | .typeAscription | .primitiveType | .arrayType | .functionType => .type
  | .syntaxError => .error

/-- Whether nodes of this type stand for source that did not parse. -/
def isError (t : NodeType) : Bool := t == .syntaxError

/-- The types by name. -/
def variants : List (String × NodeType) := all.map fun t => (t.name, t)

def ofName? (name : String) : Option NodeType := variants.lookup name

end NodeType

end AnalysisBrowser
