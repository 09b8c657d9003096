import ReactiveView.Value.Basic

/-!
This module contains the causes for which evaluation fails, and their messages.
-/

namespace ReactiveView

/--
A value of a type that the operation does not take.
-/
inductive TypeFault where
  | cannotAssign (attr typeName : String)
  | cannotDelegate (attr typeName : String)
  | notCallable (typeName : String)
  | integerOverflow
  | absOverflow
  | unsupportedOperands (operator left right : String)
  | badUnaryOperand (typeName : String)
  | badAbsOperand (typeName : String)
  | sequenceTooLong
  | notOrdered (left right : String)
  | notIterable (typeName : String)
  | indexNotInteger (typeName : String)
  | keyNotString
  | notSubscriptable (typeName : String)
  | expectsOneString (method : String)
  | expectsTwoStrings (method : String)
  | expectsList (method : String)
  | noLength (typeName : String)
  | notNumeric (function typeName : String)
  | extremeOfNonNumber (function typeName : String)
  | notRoundable (typeName : String)
  deriving Repr, DecidableEq

/-- The message of a type fault. -/
def TypeFault.message : TypeFault → String
  | cannotAssign a t => s!"cannot assign attribute '{a}' on '{t}'"
  | cannotDelegate a t => s!"cannot delegate to attribute '{a}' of '{t}'"
  | notCallable t => s!"'{t}' object is not callable"
  | integerOverflow => "integer overflow"
  | absOverflow => "integer overflow in abs()"
  | unsupportedOperands op l r => s!"unsupported operand type(s) for {op}: '{l}' and '{r}'"
  | badUnaryOperand t => s!"bad operand type for unary operator: '{t}'"
  | badAbsOperand t => s!"bad operand type for abs(): '{t}'"
  | sequenceTooLong => "repeated sequence is too long"
  | notOrdered l r => s!"'<' not supported between '{l}' and '{r}'"
  | notIterable t => s!"argument of type '{t}' is not iterable"
  | indexNotInteger t => s!"indices must be integers, not '{t}'"
  | keyNotString => "object keys must be strings"
  | notSubscriptable t => s!"'{t}' object is not subscriptable"
  | expectsOneString m => s!"{m}() expects one string"
  | expectsTwoStrings m => s!"{m}() expects two strings"
  | expectsList m => s!"{m}() expects a list"
  | noLength t => s!"object of type '{t}' has no len()"
  | notNumeric f t => s!"{f}() argument must be a number or string, not '{t}'"
  | extremeOfNonNumber f t => s!"{f}() expects numbers, got '{t}'"
  | notRoundable t => s!"type '{t}' doesn't define round()"

/--
What is wrong with a template or with its arguments.
-/
inductive FormatFault where
  | fieldTooWide (limit : Nat)
  | incomplete
  | tooFewArguments
  | tooManyArguments
  | numberRequired (conversion : Char) (typeName : String)
  | unsupportedConversion (conversion : Char)
  deriving Repr, DecidableEq

/-- The message of a format fault. -/
def FormatFault.message : FormatFault → String
  | fieldTooWide limit => s!"width or precision exceeds {limit}"
  | incomplete => "incomplete format"
  | tooFewArguments => "not enough arguments for format string"
  | tooManyArguments => "not all arguments converted during string formatting"
  | numberRequired c t => s!"%{c} format: a number is required, not {t}"
  | unsupportedConversion c => s!"unsupported format character '{c}'"

/--
Why a function refuses its arguments.
-/
inductive CallFault where
  | arity (expected given : Nat)
  | invalidLiteral (text : String)
  | notAFloat (text : String)
  | emptySequence
  | roundArguments
  | hostFailure (arguments : Nat)
  deriving Repr, DecidableEq

/-- The message of a call fault. -/
def CallFault.message : CallFault → String
  | arity e g => s!"takes {e} argument(s), {g} given"
  | invalidLiteral s => s!"invalid literal: '{s}'"
  | notAFloat s => s!"could not convert string to float: '{s}'"
  | emptySequence => "arg is an empty sequence"
  | roundArguments => "expects a number and optional integer digits"
  | hostFailure n => s!"failed with {n} argument(s)"

/--
Why evaluating an expression or running a statement fails.
-/
inductive EvalError where
  /-- No layer of the scope has the name. -/
  | nameNotFound (name : String)
  /-- The value has no such attribute. -/
  | noAttribute (typeName attr : String)
  /-- A value has the wrong type. -/
  | type (fault : TypeFault)
  /-- A divisor is zero. -/
  | zeroDivision
  /-- An index points outside of its sequence. -/
  | indexOutOfRange (index : Int) (length : Nat)
  /-- A template cannot be filled in. -/
  | format (fault : FormatFault)
  /-- The object takes no assignments. -/
  | readOnly (attr : String)
  /-- A function refuses its arguments. -/
  | call (function : String) (fault : CallFault)
  deriving Repr, DecidableEq

/-- The message of an evaluation error. -/
def EvalError.message : EvalError → String
  | nameNotFound n => s!"name '{n}' is not defined"
  | noAttribute t a => s!"'{t}' object has no attribute '{a}'"
  | type f => f.message
  | zeroDivision => "division by zero"
  | indexOutOfRange i n => s!"index {i} out of range for length {n}"
  | format f => s!"format error: {f.message}"
  | readOnly a => s!"attribute '{a}' is read-only"
  | call f fault => s!"{f}(): {fault.message}"

end ReactiveView
