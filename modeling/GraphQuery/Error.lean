/-! What is reported: causes of failure with their wording, and log records. Operations that report something
return their records as data. -/
namespace GraphQuery

/-- An argument from which no value of the query language can be made. -/
inductive ArgumentError where
  | nameMissing
  | nameInvalid (text : String)
  | parameterNameMissing
  | parameterNameInvalid (text : String)
  | literalUnsupported (what : String)
  | aliasMissing
  | propertyNameMissing
  | mapArgumentsOdd
  | mapKeyInvalid
  | mapKeyRepeated (key : String)
  | primaryLabelMissing
  | labelEmpty
  | labelsMissing
  | nodeUnnamed
  | relationshipUnnamed
  | leftOperandMissing
  | operatorMissing
  | rightOperandMissing
  | rightOperandRefused (symbol : String)
  | operatorNotComparing (symbol : String)
  | relationshipTypeEmpty
  | lengthInverted (minimum maximum : Nat)
  | patternsMissing
  | expressionsMissing
  | assignmentsOdd
  | statementsMissing
  | unionsMixed
  deriving DecidableEq, Repr

namespace ArgumentError

def message : ArgumentError → String
  | nameMissing => "Symbolic name is required."
  | nameInvalid text => "'" ++ text ++ "' is not a valid symbolic name."
  | parameterNameMissing => "The parameter name is required."
  | parameterNameInvalid text => "'" ++ text ++ "' is not a valid parameter name."
  | literalUnsupported what => "Unsupported literal type: " ++ what
  | aliasMissing => "The alias may not be null or empty."
  | propertyNameMissing => "The property name is required."
  | mapArgumentsOdd => "Need an even number of input parameters."
  | mapKeyInvalid => "Key needs to be of type String."
  | mapKeyRepeated key => "Duplicate key '" ++ key ++ "'"
  | primaryLabelMissing => "A primary label is required."
  | labelEmpty => "An empty label is not allowed."
  | labelsMissing => "At least one label is required."
  | nodeUnnamed => "The node needs to be named."
  | relationshipUnnamed => "The relationship needs to be named."
  | leftOperandMissing => "Left expression must not be null."
  | operatorMissing => "Operator must not be empty."
  | rightOperandMissing => "Right expression must not be null."
  | rightOperandRefused symbol => "Operator '" ++ symbol ++ "' does not accept a right expression."
  | operatorNotComparing symbol => "Operator '" ++ symbol ++ "' cannot be used in a comparison."
  | relationshipTypeEmpty => "An empty relationship type is not allowed."
  | lengthInverted minimum maximum =>
    "Invalid length range " ++ toString minimum ++ ".." ++ toString maximum ++
      ": the minimum exceeds the maximum."
  | patternsMissing => "At least one pattern is required."
  | expressionsMissing => "At least one expression is required."
  | assignmentsOdd => "The list of expression to set must be even."
  | statementsMissing => "At least two statements are required!"
  | unionsMixed => "Cannot mix union and union all!"

end ArgumentError

/-- The clauses whose absence can leave a statement incomplete. -/
inductive RequiredClause where
  | matching
  | returning
  deriving DecidableEq, Repr

def RequiredClause.keyword : RequiredClause → String
  | .matching => "MATCH"
  | .returning => "RETURN"

inductive StatementError where
  | incomplete (missing : RequiredClause)
  deriving DecidableEq, Repr

def StatementError.message : StatementError → String
  | .incomplete missing =>
    "Incomplete statement: the " ++ missing.keyword ++ " clause is missing."

/-- A traversal that left another node than the innermost open one, or left nodes open. -/
inductive DispatchError where
  | imbalance (expected found : String)
  | unclosed (open_ : Nat)
  deriving DecidableEq, Repr

def DispatchError.message : DispatchError → String
  | .imbalance expected found =>
    "Unbalanced traversal: leaving " ++ found ++ " while " ++ expected ++ " is open."
  | .unclosed n =>
    "Unbalanced traversal: " ++ toString n ++ " node(s) still open after traversal."

/-- The file, the library that writes and reads its text, and the stem of generated names can be at fault. -/
inductive ConfigError where
  | io (detail : String)
  | document (detail : String)
  | stemInvalid (stem : String)
  deriving DecidableEq, Repr

def ConfigError.message : ConfigError → String
  | .io detail => "IO error: " ++ detail
  | .document detail => "Invalid configuration: " ++ detail
  | .stemInvalid stem => "Invalid configuration: Invalid anonymous parameter prefix '" ++ stem ++ "'"

inductive Level where
  | error
  | warn
  | debug
  | trace
  deriving DecidableEq, Repr

structure Record where
  level : Level
  text : String
  deriving DecidableEq, Repr

/-- A result together with the records made on the way, oldest first. -/
structure Logged (α : Type) where
  value : α
  records : List Record

end GraphQuery
