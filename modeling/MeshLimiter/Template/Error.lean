import MeshLimiter.Decimal.Shortest
import MeshLimiter.Text.Quoted
/-!
# What can go wrong with a template

The causes, from an open placeholder to a quota that is no number of requests, and their wording.
-/

namespace MeshLimiter.Template

/-- Why a text is no expression. -/
inductive Reason where
  | invalidNumber (literal : String)
  | unexpectedIdentifier (word : String)
  | assignment
  | unexpectedCharacter (c : Char)
  | trailingInput
  | chainedComparison
  | unexpectedEnd
  | missingClose
  | expectedValue
deriving DecidableEq, Repr

/-- The two kinds of values. -/
inductive Kind where
  | boolean
  | numeric
deriving DecidableEq, Repr

/-- Why an expression has no value. -/
inductive Fault where
  | parse (reason : Reason)
  | type (expected : Kind)
  | divideByZero
deriving DecidableEq, Repr

/-- Why a template has no value. -/
inductive Error where
  | unterminated (template : String)
  | invalidPlaceholder (text : String)
  | unknownMetric (key : String)
  | groupMetric (key : String)
  | parse (expression : String) (reason : Reason)
  | type (expected : Kind)
  | divideByZero
  | invalidQuota (value : Float)
deriving DecidableEq, Repr

def Reason.message : Reason → String
  | invalidNumber literal => "invalid number " ++ Text.quoted literal
  | unexpectedIdentifier word => "unexpected identifier " ++ Text.quoted word
  | assignment => "assignment is not supported"
  | unexpectedCharacter c => "unexpected character " ++ Text.quotedChar c
  | trailingInput => "unexpected trailing input"
  | chainedComparison => "comparisons cannot be chained"
  | unexpectedEnd => "unexpected end of expression"
  | missingClose => "missing closing parenthesis"
  | expectedValue => "expected a value"

def Kind.word : Kind → String
  | boolean => "boolean"
  | numeric => "numeric"

def Fault.inExpression (expression : String) : Fault → Error
  | parse reason => .parse expression reason
  | type expected => .type expected
  | divideByZero => .divideByZero

def Error.message : Error → String
  | unterminated template => "unterminated placeholder in " ++ Text.quoted template
  | invalidPlaceholder text =>
    "placeholder " ++ Text.quoted text ++ " must reference a key as \x60.name\x60"
  | unknownMetric key => "unknown metric " ++ Text.quoted key
  | groupMetric key => Text.quoted key ++ " is a group metric and cannot be used as a scalar"
  | parse expression reason =>
    "invalid expression " ++ Text.quoted expression ++ ": " ++ reason.message
  | type expected => "expected a " ++ expected.word ++ " value"
  | divideByZero => "division by zero"
  | invalidQuota value =>
    "quota must be a finite, non-negative number; got " ++ Decimal.floatText value

end MeshLimiter.Template
