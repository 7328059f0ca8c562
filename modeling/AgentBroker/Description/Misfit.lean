import AgentBroker.Description.Value

/-!
# Misfits

Why a data model, an instance or a query is not well formed.
-/

namespace AgentBroker

inductive ConstraintFlaw where
  | operandType (actual expected : ValueType)
  | rangeUndefined (type : ValueType)
  | rangeReversed
  | emptySet
  | badDistance
  deriving DecidableEq, Repr, Inhabited

namespace ConstraintFlaw

def message : ConstraintFlaw → String
  | operandType actual expected =>
    "operand type " ++ actual.label ++ " does not match attribute type " ++ expected.label
  | rangeUndefined type => "range is not defined for " ++ type.label
  | rangeReversed => "range minimum is greater than maximum"
  | emptySet => "set constraint has no values"
  | badDistance => "distance must be a non-negative number"

end ConstraintFlaw

inductive Misfit where
  | duplicateAttribute (model attr : String)
  | unknownAttribute (model attr : String)
  | missingRequired (model attr : String)
  | typeMismatch (attr : String) (expected actual : ValueType)
  | invalidConstraint (attr : String) (message : String)
  deriving DecidableEq, Repr, Inhabited

namespace Misfit

def kind : Misfit → String
  | duplicateAttribute .. => "DuplicateAttribute"
  | unknownAttribute .. => "UnknownAttribute"
  | missingRequired .. => "MissingRequired"
  | typeMismatch .. => "TypeMismatch"
  | invalidConstraint .. => "InvalidConstraint"

def message : Misfit → String
  | duplicateAttribute model attr =>
    "Duplicate attribute '" ++ attr ++ "' in data model '" ++ model ++ "'"
  | unknownAttribute model attr =>
    "Attribute '" ++ attr ++ "' is not declared by data model '" ++ model ++ "'"
  | missingRequired model attr =>
    "Required attribute '" ++ attr ++ "' of data model '" ++ model ++ "' has no value"
  | typeMismatch attr expected actual =>
    "Attribute '" ++ attr ++ "' expects " ++ expected.label ++ " but got " ++ actual.label
  | invalidConstraint attr message =>
    "Invalid constraint on '" ++ attr ++ "': " ++ message

end Misfit

end AgentBroker
