import FleetSearch.FieldName

/-! # Filter errors -/
namespace FleetSearch

/-- Why a filter cannot be turned into a clause. -/
inductive FilterError where
  | unsupportedOperator (operator : String)
  | arrayNotSupported
  | arrayRequired
  | kindRequired (kind : ValueKind)
  | unknownOperand (value : String) (type : String)
  deriving DecidableEq, Repr

def FilterError.message : FilterError → String
  | unsupportedOperator _ => "filter type not supported"
  | arrayNotSupported => "filter doesn't support array values"
  | arrayRequired => "filter supports only array values"
  | kindRequired .string => "filter supports only string values"
  | kindRequired .number => "filter supports only numeric values"
  | kindRequired .boolean => "filter supports only boolean values"
  | unknownOperand value type => "unknown attribute value type: " ++ value ++ " " ++ type

end FleetSearch
