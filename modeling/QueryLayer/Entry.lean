import QueryLayer.Value
import QueryLayer.Field

/-!
# Entries

A query is a list of entries on a collection: conditions, operators over nested
entries, joins, a limit, sort and group keys, and assignments. Entries only
hold data; what they mean is settled where a statement is rendered.
-/

namespace QueryLayer

/-- A collection together with its database. -/
structure CollectionRef where
  /-- The database. -/
  database : String
  /-- The collection. -/
  name : String
deriving DecidableEq, Repr, Inhabited

/-- The ways to test a field. -/
inductive ConditionKind where
  | equals
  | like
  | lower
  | higher
  | null
  | oneOf
  | between
deriving DecidableEq, Repr, Inhabited

namespace ConditionKind

/-- Every way to test. -/
def all : List ConditionKind := [.equals, .like, .lower, .higher, .null, .oneOf, .between]

/-- The name in queries. -/
def name : ConditionKind → String
  | .equals => "equals"
  | .like => "like"
  | .lower => "lower"
  | .higher => "higher"
  | .null => "null"
  | .oneOf => "in"
  | .between => "between"

end ConditionKind

/-- The operators over nested entries. -/
inductive OperationKind where
  | and
  | or
  | not
deriving DecidableEq, Repr

namespace OperationKind

/-- Every operator. -/
def all : List OperationKind := [.and, .or, .not]

/-- The name in queries. -/
def name : OperationKind → String
  | .and => "and"
  | .or => "or"
  | .not => "not"

/-- The name in SQL. -/
def keyword : OperationKind → String
  | .and => "AND"
  | .or => "OR"
  | .not => "NOT"

end OperationKind

/-- A test of a field or of an aggregation of it. -/
structure Condition where
  /-- The way of testing. -/
  kind : ConditionKind
  /-- The field and the aggregation around it. -/
  target : Target
  /-- What the field is tested against; without use in a test for null. -/
  value : Operand
  /-- The upper bound of a range. -/
  upperBound : Option Operand
deriving Inhabited

/-- The ways to join. -/
inductive JoinType where
  | inner
  | left
  | right
  | full
deriving DecidableEq, Repr

namespace JoinType

/-- Every way to join. -/
def all : List JoinType := [.inner, .left, .right, .full]

/-- The name in queries. -/
def name : JoinType → String
  | .inner => "inner"
  | .left => "left"
  | .right => "right"
  | .full => "full"

/-- The name in SQL. -/
def keyword : JoinType → String
  | .inner => "INNER"
  | .left => "LEFT"
  | .right => "RIGHT"
  | .full => "FULL"

end JoinType

/-- One equality of a join. -/
structure JoinPair where
  /-- The collection of the left column. -/
  collection1 : CollectionRef
  /-- The left column. -/
  column1 : String
  /-- The collection of the right column; without it the column stands alone. -/
  collection2 : Option CollectionRef
  /-- The right column. -/
  column2 : String
deriving DecidableEq, Repr

/-- A joined collection and its equalities. -/
structure Join where
  /-- The joined collection. -/
  collection : CollectionRef
  /-- The way of joining. -/
  joinType : JoinType
  /-- The equalities, all of which must hold. -/
  pairs : List JoinPair
deriving DecidableEq, Repr

/-- How many rows are skipped and how many are taken after them. -/
structure Window where
  /-- The most rows taken. -/
  limit : UInt64
  /-- The rows skipped. -/
  offset : UInt64
deriving DecidableEq, Repr

/-- The two directions of sorting. -/
inductive SortOrder where
  | asc
  | desc
deriving DecidableEq, Repr

namespace SortOrder

/-- Both directions. -/
def all : List SortOrder := [.asc, .desc]

/-- The name in queries. -/
def name : SortOrder → String
  | .asc => "asc"
  | .desc => "desc"

/-- The name in SQL. -/
def keyword : SortOrder → String
  | .asc => "ASC"
  | .desc => "DESC"

end SortOrder

/-- A key to sort by. -/
structure SortKey where
  /-- The sorted field and the aggregation around it. -/
  target : Target
  /-- The direction. -/
  order : SortOrder
deriving DecidableEq, Repr

/-- A calculation with the value a column holds. -/
inductive Arithmetic where
  | add
  | subtract
  | multiply
  | divide
deriving DecidableEq, Repr

namespace Arithmetic

/-- Every calculation. -/
def all : List Arithmetic := [.add, .subtract, .multiply, .divide]

/-- The name in queries. -/
def name : Arithmetic → String
  | .add => "add"
  | .subtract => "subtract"
  | .multiply => "multiply"
  | .divide => "divide"

/-- The sign in SQL. -/
def symbol : Arithmetic → Char
  | .add => '+'
  | .subtract => '-'
  | .multiply => '*'
  | .divide => '/'

end Arithmetic

/-- An assignment to a field. -/
structure Assignment where
  /-- The field. -/
  field : FieldRef
  /-- The assigned value, or the second operand of the calculation. -/
  value : Operand
  /-- The calculation with the value the field holds. -/
  operator : Option Arithmetic
deriving Inhabited

/-- An entry of a query. -/
inductive Entry where
  | condition (c : Condition)
  /-- An operator over nested entries. -/
  | operation (kind : OperationKind) (entries : List Entry)
  | join (j : Join)
  | limit (w : Window)
  | orderBy (k : SortKey)
  /-- A key to group by. -/
  | groupBy (t : Target)
  | set (a : Assignment)
deriving Inhabited

namespace Entry

/-- The name of the kind of entry. -/
def kind : Entry → String
  | .condition _ => "condition"
  | .operation _ _ => "operation"
  | .join _ => "join"
  | .limit _ => "limit"
  | .orderBy _ => "order_by"
  | .groupBy _ => "group_by"
  | .set _ => "set"

mutual

/-- The entry holds a condition at some depth, so that it filters. -/
def isPredicate : Entry → Bool
  | .condition _ => true
  | .operation _ es => anyPredicate es
  | _ => false

/-- One of the entries filters. -/
def anyPredicate : List Entry → Bool
  | [] => false
  | e :: es => isPredicate e || anyPredicate es

end

mutual

/-- The entry is a limit or holds one at some depth. -/
def containsLimit : Entry → Bool
  | .limit _ => true
  | .operation _ es => anyLimit es
  | _ => false

/-- One of the entries holds a limit. -/
def anyLimit : List Entry → Bool
  | [] => false
  | e :: es => containsLimit e || anyLimit es

end

theorem anyLimit_eq_any (es : List Entry) : anyLimit es = es.any containsLimit := by
  induction es with
  | nil => rfl
  | cons e es ih => simp [anyLimit, ih]

end Entry

/-- A column of the result. -/
structure Projection where
  /-- The field and the aggregation around it. -/
  target : Target
  /-- The name of the column in the result. -/
  label : Option String
deriving DecidableEq, Repr

/-- An inserted field with its values in the first rows. -/
structure InsertColumn where
  /-- The field. -/
  field : String
  /-- One value for each row from the first on. -/
  values : List Operand
deriving Inhabited

end QueryLayer
