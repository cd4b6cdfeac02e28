import QueryLayer.Definition

/-!
# Errors

Each error is the cause for which a query was refused; `QueryError.message` is
its wording. What a back end cannot express is named by a `Feature`.
-/

namespace QueryLayer

/-- What a back end cannot express. -/
inductive Feature where
  | joinType (t : JoinType)
  | replace
  | filteredReplace
  | includedQuery
  | dataType (t : DataType)
  | dropDatabase
  | foreignKey
  | aggregatedCondition
  | aggregatedSortKey
  | aggregatedGroupKey
  | patternThatIsNoText
  | subtractedMinimum
  | subtractedNonNumber
  | dividedByNonNumber
  | divisionByZero
  /-- A clause that has no place in a statement of this kind. -/
  | clauseIn (clause statement : String)
deriving DecidableEq, Repr

namespace Feature

/-- The wording of a feature. -/
def text : Feature → String
  | .joinType t => t.keyword ++ " JOIN"
  | .replace => "replace"
  | .filteredReplace => "replace with a filter"
  | .includedQuery => "create with an included query"
  | .dataType t => "data type " ++ t.title
  | .dropDatabase => "drop database"
  | .foreignKey => "foreign key"
  | .aggregatedCondition => "aggregated condition"
  | .aggregatedSortKey => "aggregated sort key"
  | .aggregatedGroupKey => "aggregated group key"
  | .patternThatIsNoText => "LIKE with a non-text pattern"
  | .subtractedMinimum => "subtracting i64::MIN"
  | .subtractedNonNumber => "subtracting a non-numeric value"
  | .dividedByNonNumber => "dividing by a non-numeric value"
  | .divisionByZero => "division by zero"
  | .clauseIn clause statement => clause ++ " in " ++ statement

end Feature

/-- An entry where it has no meaning. -/
inductive Misplaced where
  /-- An assignment outside the top level of an update or a replace. -/
  | assignment
  /-- A range without its upper bound. -/
  | unboundedRange
deriving DecidableEq, Repr

namespace Misplaced

/-- The wording of a misplaced entry. -/
def text : Misplaced → String
  | .assignment => "set"
  | .unboundedRange => "between without upper bound"

end Misplaced

/-- Why a query was refused. -/
inductive QueryError where
  | duplicateLimit
  | invalidLimit (w : Window)
  | invalidPage (page : UInt64)
  | onWithoutJoin
  | valuesMismatch (expected actual : Nat)
  | unbalancedInsert (values fields : Nat)
  | insertOverflow (field : String) (values rows : Nat)
  | emptyInsert (collection : String)
  | noAssignments (collection : String)
  | insertArithmetic (field : String)
  | duplicateInclude
  | missingField
  | missingPreparedValue (position : Nat)
  | emptyInList (field : String)
  | unexpectedEntry (entry : Misplaced) (statement : String)
  | unsupported (backend : String) (feature : Feature)
  /-- The executor refused a command, for the reason it gives. -/
  | execution (command reason : String)
  /-- The task that ran a command broke off. -/
  | task
deriving DecidableEq, Repr

namespace QueryError

/-- The wording of an error. -/
def message : QueryError → String
  | .duplicateLimit => "Query already has a limit"
  | .invalidLimit w =>
    "Invalid limit " ++ toString w.limit.toNat ++ " (offset " ++ toString w.offset.toNat ++
      "): limit must be greater than zero"
  | .invalidPage page => "Invalid page " ++ toString page.toNat ++ ": pages start at 1"
  | .onWithoutJoin => "'on' must directly follow a 'join' call"
  | .valuesMismatch expected actual =>
    "Expected " ++ toString expected ++ " values (one per field), got " ++ toString actual
  | .unbalancedInsert values fields =>
    "Cannot split " ++ toString values ++ " values into rows of " ++ toString fields ++ " fields"
  | .insertOverflow field values rows =>
    "Field '" ++ field ++ "' has " ++ toString values ++ " values but only " ++ toString rows ++
      " rows are inserted"
  | .emptyInsert collection => "Insert into '" ++ collection ++ "' has no fields or no values"
  | .noAssignments collection => "No fields are assigned in '" ++ collection ++ "'"
  | .insertArithmetic field => "Arithmetic assignment on '" ++ field ++ "' is not allowed here"
  | .duplicateInclude => "Create query already includes a query"
  | .missingField => "Definition is missing a field name"
  | .missingPreparedValue position => "Missing prepared value at position " ++ toString position
  | .emptyInList field => "Empty value list for IN condition on '" ++ field ++ "'"
  | .unexpectedEntry entry statement =>
    "Entry '" ++ entry.text ++ "' is not valid in a " ++ statement ++ " statement"
  | .unsupported backend feature =>
    "Operation '" ++ feature.text ++ "' is not supported by " ++ backend
  | .execution command _ => "Error executing query: " ++ command
  | .task => "Execution task failed"

end QueryError

end QueryLayer
