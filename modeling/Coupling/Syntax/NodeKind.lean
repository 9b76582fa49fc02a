/-!
# Kinds of syntax nodes

The categories of the Python grammar that the analysis tells apart. Every other category is kept by
its name.
-/

namespace Coupling.Syntax

inductive NodeKind where
  | functionDefinition
  | classDefinition
  | decoratedDefinition
  | decorator
  | identifier
  | parameters
  | lambdaParameters
  | typedParameter
  | defaultParameter
  | typedDefaultParameter
  | listSplatPattern
  | dictionarySplatPattern
  | keywordSeparator
  | trueLiteral
  | falseLiteral
  | integer
  | float
  | string
  | stringStart
  | stringEnd
  | concatenatedString
  | unaryOperator
  | booleanOperator
  | minus
  | call
  | argumentList
  | keywordArgument
  | dictionarySplat
  | attribute
  | assignment
  | augmentedAssignment
  | expressionStatement
  | returnStatement
  | raiseStatement
  | globalStatement
  | nonlocalStatement
  | dottedName
  | aliasedImport
  | ifStatement
  | elifClause
  | elseClause
  | forStatement
  | whileStatement
  | tryStatement
  | exceptClause
  | exceptGroupClause
  | finallyClause
  | withStatement
  | withClause
  | withItem
  | matchStatement
  | caseClause
  | ifClause
  | block
  | comment
  | other (name : String)
deriving DecidableEq, Repr

namespace NodeKind

/-- The name of a category in the grammar. -/
def name : NodeKind → String
  | .functionDefinition => "function_definition"
  | .classDefinition => "class_definition"
  | .decoratedDefinition => "decorated_definition"
  | .decorator => "decorator"
  | .identifier => "identifier"
  | .parameters => "parameters"
  | .lambdaParameters => "lambda_parameters"
  | .typedParameter => "typed_parameter"
  | .defaultParameter => "default_parameter"
  | .typedDefaultParameter => "typed_default_parameter"
  | .listSplatPattern => "list_splat_pattern"
  | .dictionarySplatPattern => "dictionary_splat_pattern"
  | .keywordSeparator => "keyword_separator"
  | .trueLiteral => "true"
  | .falseLiteral => "false"
  | .integer => "integer"
  | .float => "float"
  | .string => "string"
  | .stringStart => "string_start"
  | .stringEnd => "string_end"
  | .concatenatedString => "concatenated_string"
  | .unaryOperator => "unary_operator"
  | .booleanOperator => "boolean_operator"
  | .minus => "-"
  | .call => "call"
  | .argumentList => "argument_list"
  | .keywordArgument => "keyword_argument"
  | .dictionarySplat => "dictionary_splat"
  | .attribute => "attribute"
  | .assignment => "assignment"
  | .augmentedAssignment => "augmented_assignment"
  | .expressionStatement => "expression_statement"
  | .returnStatement => "return_statement"
  | .raiseStatement => "raise_statement"
  | .globalStatement => "global_statement"
  | .nonlocalStatement => "nonlocal_statement"
  | .dottedName => "dotted_name"
  | .aliasedImport => "aliased_import"
  | .ifStatement => "if_statement"
  | .elifClause => "elif_clause"
  | .elseClause => "else_clause"
  | .forStatement => "for_statement"
  | .whileStatement => "while_statement"
  | .tryStatement => "try_statement"
  | .exceptClause => "except_clause"
  | .exceptGroupClause => "except_group_clause"
  | .finallyClause => "finally_clause"
  | .withStatement => "with_statement"
  | .withClause => "with_clause"
  | .withItem => "with_item"
  | .matchStatement => "match_statement"
  | .caseClause => "case_clause"
  | .ifClause => "if_clause"
  | .block => "block"
  | .comment => "comment"
  | .other name => name

/-- The categories that are told apart. -/
def known : List NodeKind :=
  [.functionDefinition, .classDefinition, .decoratedDefinition, .decorator, .identifier,
   .parameters, .lambdaParameters, .typedParameter, .defaultParameter, .typedDefaultParameter,
   .listSplatPattern, .dictionarySplatPattern, .keywordSeparator, .trueLiteral, .falseLiteral,
   .integer, .float, .string, .stringStart, .stringEnd, .concatenatedString, .unaryOperator,
   .booleanOperator, .minus, .call, .argumentList, .keywordArgument, .dictionarySplat, .attribute,
   .assignment, .augmentedAssignment, .expressionStatement, .returnStatement, .raiseStatement,
   .globalStatement, .nonlocalStatement, .dottedName, .aliasedImport, .ifStatement, .elifClause,
   .elseClause, .forStatement, .whileStatement, .tryStatement, .exceptClause, .exceptGroupClause,
   .finallyClause, .withStatement, .withClause, .withItem, .matchStatement, .caseClause,
   .ifClause, .block, .comment]

def ofName (s : String) : NodeKind :=
  (known.find? (·.name == s)).getD (.other s)

end NodeKind

end Coupling.Syntax
