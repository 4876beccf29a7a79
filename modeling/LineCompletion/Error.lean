import LineCompletion.Number.Decimal

/-!
# Why something has no value

The causes for which a subscript or an expression has no value, and how each is worded. Whether a
container is a mapping or a sequence shows in the cause that a bogus subscript fails with, so the
causes are told apart and not only their wording.
-/

namespace LineCompletion

/-! ### Subscripts -/

/-- Why a subscript has no value. -/
inductive LookupError where
  /-- The key could be there but is not. -/
  | keyNotFound (key : String)
  /-- The index lies outside the container. -/
  | indexOutOfRange (index : Int64)
  /-- The container takes no keys of this type. -/
  | typeMismatch (container key : String)
  /-- The value takes no subscripts. -/
  | notSubscriptable (type : String)
  deriving DecidableEq, Repr

/-- How the cause is worded. -/
def LookupError.message : LookupError → String
  | .keyNotFound key => "key not found: " ++ key
  | .indexOutOfRange index =>
    "index out of range: " ++ String.ofList (Number.signedDigits index.toInt)
  | .typeMismatch container key => container ++ " indices must not be " ++ key
  | .notSubscriptable type => "'" ++ type ++ "' object is not subscriptable"

/-! ### Expressions -/

/-- What is wrong with the text of an expression. -/
inductive SyntaxProblem where
  /-- Something else stands where a closing bracket is due. -/
  | expected (c : Char)
  /-- Nothing stands where an expression is due. -/
  | endOfExpression
  /-- No expression starts with what stands there. -/
  | noExpression
  /-- No name stands after a dot. -/
  | noIdentifier
  /-- A string has no closing quote. -/
  | unterminatedString
  /-- A number cannot be read. -/
  | number (cause : Number.IntegerError)
  /-- Brackets are nested too deeply. -/
  | tooDeep
  /-- Something comes after the expression. -/
  | trailingInput
  /-- A problem that a host function reports. -/
  | reported (message : String)
  deriving DecidableEq, Repr

/-- How the problem is worded. -/
def SyntaxProblem.message : SyntaxProblem → String
  | .expected c => "expected '" ++ String.singleton c ++ "'"
  | .endOfExpression => "unexpected end of expression"
  | .noExpression => "expected a name or literal"
  | .noIdentifier => "expected an identifier"
  | .unterminatedString => "unterminated string literal"
  | .number cause => cause.message
  | .tooDeep => "too deeply nested"
  | .trailingInput => "unexpected trailing input"
  | .reported message => message

/-- Why an expression has no value. -/
inductive EvalError where
  /-- The text is no expression; the problem shows at a byte offset. -/
  | syntaxError (position : Nat) (problem : SyntaxProblem)
  /-- A name is bound in no scope. -/
  | unknownName (name : String)
  /-- A value has no member of this name. -/
  | missingAttribute (owner name : String)
  /-- A subscript has no value. -/
  | lookup (cause : LookupError)
  /-- A value of this type cannot be called. -/
  | notCallable (type : String)
  /-- A function reports a failure. -/
  | callFailed (name reason : String)
  /-- The expression holds a call, and calls are not allowed. -/
  | callBlocked (expr : String)
  deriving DecidableEq, Repr

/-- How the cause is worded. -/
def EvalError.message : EvalError → String
  | .syntaxError position problem =>
    "invalid syntax at byte " ++ String.ofList (Number.digits position) ++ ": " ++ problem.message
  | .unknownName name => "name '" ++ name ++ "' is not defined"
  | .missingAttribute owner name => "'" ++ owner ++ "' object has no attribute '" ++ name ++ "'"
  | .lookup cause => cause.message
  | .notCallable type => "'" ++ type ++ "' object is not callable"
  | .callFailed name reason => "call to " ++ name ++ " failed: " ++ reason
  | .callBlocked expr => "evaluation of calls is disabled: " ++ expr

end LineCompletion
