import QueryLayer.Build.Search
import QueryLayer.Build.Insert
import QueryLayer.Build.Create

/-!
# Calls and programs of calls

A call is what a user of the library asks of a query that is being built. A
program is a list of calls. `attempt` runs one call: where the call refuses,
the query stays as it was, so that a program can go on after an error.
-/

namespace QueryLayer

namespace Build

mutual

/-- A call on any search. -/
inductive SearchCall where
  | whereEq (t : Target) (v : Operand)
  | whereNot (t : Target) (v : Operand)
  | whereLike (t : Target) (v : Operand)
  | whereLower (t : Target) (v : Operand)
  | whereHigher (t : Target) (v : Operand)
  | whereNull (t : Target)
  | whereNotNull (t : Target)
  /-- The field is the empty text. -/
  | whereEmpty (t : Target)
  | whereIn (t : Target) (vs : List Value)
  /-- The field is one of the items of a runtime value. -/
  | whereInPrepared (t : Target)
  | whereBetween (t : Target) (low high : Operand)
  /-- Any condition without an upper bound. -/
  | condition (kind : ConditionKind) (t : Target) (v : Operand)
  /-- Any negated condition without an upper bound. -/
  | conditionNot (kind : ConditionKind) (t : Target) (v : Operand)
  /-- Any entry. -/
  | push (e : Entry)
  /-- An operator over what the calls build on the same collection. -/
  | operation (kind : OperationKind) (calls : List FindCall)
  /-- An operator over what the calls build on a collection of their own. -/
  | operationOn (kind : OperationKind) (c : CollectionRef) (calls : List FindCall)
  | limit (n offset : UInt64)
  | limitTo (n : UInt64)
  | onlyOne
  | index (first last : UInt64)
  | page (page size : UInt64)
  | orderBy (t : Target) (o : SortOrder)
  | groupBy (t : Target)
  | join (c : CollectionRef) (t : JoinType)
  | on (column1 column2 : String)
  | onCollection (column1 : String) (c : CollectionRef) (column2 : String)

/-- A call on a find. -/
inductive FindCall where
  | search (c : SearchCall)
  | get (t : Target)
  | getAs (t : Target) (label : String)
  | getAll (ts : List Target)

end

/-- A call on an update or a replace. -/
inductive ChangeCall where
  | search (c : SearchCall)
  | assign (field : String) (v : Operand) (op : Option Arithmetic)

/-- A call on an insert. -/
inductive InsertCall where
  | set (field : String) (v : Operand)
  | setPrepared (field : String)
  | fields (names : List String)
  | values (vs : List Operand)

/-- A call on a create. -/
inductive CreateCall where
  | define (d : Definition)
  | engine (name : String)
  /-- Includes what the calls build on a collection. -/
  | includeFind (c : CollectionRef) (calls : List FindCall)

/-- A find with a call applied to its search. -/
def onSearch (f : Find) (g : Search → Except QueryError Search) : Except QueryError Find :=
  (g f.toSearch).map fun s => { f with toSearch := s }

mutual

/-- Runs a call on a search. -/
def SearchCall.apply : SearchCall → Search → Except QueryError Search
  | .whereEq t v, s => .ok (s.condition .equals t v)
  | .whereNot t v, s => .ok (s.conditionNot .equals t v)
  | .whereLike t v, s => .ok (s.condition .like t v)
  | .whereLower t v, s => .ok (s.condition .lower t v)
  | .whereHigher t v, s => .ok (s.condition .higher t v)
  | .whereNull t, s => .ok (s.condition .null t (.literal .null))
  | .whereNotNull t, s => .ok (s.conditionNot .null t (.literal .null))
  | .whereEmpty t, s => .ok (s.condition .equals t (.literal (.text "")))
  | .whereIn t vs, s => .ok (s.condition .oneOf t (.literal (.list vs)))
  | .whereInPrepared t, s => .ok (s.condition .oneOf t .prepared)
  | .whereBetween t low high, s => .ok (s.between t low high)
  | .condition kind t v, s => .ok (s.condition kind t v)
  | .conditionNot kind t v, s => .ok (s.conditionNot kind t v)
  | .push e, s => .ok (s.push e)
  | .operation kind calls, s =>
    (FindCall.applyAll calls (Find.on s.collection)).bind fun f => s.operation kind f.entries
  | .operationOn kind c calls, s =>
    (FindCall.applyAll calls (Find.on c)).bind fun f => s.operation kind f.entries
  | .limit n offset, s => s.window ⟨n, offset⟩
  | .limitTo n, s => s.window ⟨n, 0⟩
  | .onlyOne, s => s.window ⟨1, 0⟩
  | .index first last, s => s.index first last
  | .page page size, s => s.page page size
  | .orderBy t o, s => .ok (s.orderBy t o)
  | .groupBy t, s => .ok (s.groupBy t)
  | .join c t, s => .ok (s.join c t)
  | .on column1 column2, s => s.joinOn column1 none column2
  | .onCollection column1 c column2, s => s.joinOn column1 (some c) column2

/-- Runs a call on a find. -/
def FindCall.apply : FindCall → Find → Except QueryError Find
  | .search c, f => onSearch f c.apply
  | .get t, f => .ok (f.get t none)
  | .getAs t label, f => .ok (f.get t (some label))
  | .getAll ts, f => .ok (ts.foldl (fun f t => f.get t none) f)

/-- Runs calls on a find up to the first that refuses. -/
def FindCall.applyAll : List FindCall → Find → Except QueryError Find
  | [], f => .ok f
  | c :: cs, f => (c.apply f).bind (FindCall.applyAll cs)

end

namespace ChangeCall

/-- Runs a call on an update or a replace. -/
def apply : ChangeCall → Search → Except QueryError Search
  | .search c, s => c.apply s
  | .assign field v op, s => .ok (s.assign field v op)

end ChangeCall

namespace InsertCall

/-- Runs a call on an insert. -/
def apply : InsertCall → Insert → Except QueryError Insert
  | .set field v, s => .ok (s.set field v)
  | .setPrepared field, s => .ok (s.set field .prepared)
  | .fields names, s => .ok (s.fields names)
  | .values vs, s => s.values vs

end InsertCall

namespace CreateCall

/-- Runs a call on a create. -/
def apply : CreateCall → Create → Except QueryError Create
  | .define d, s => .ok (s.define d)
  | .engine name, s => .ok (s.withEngine name)
  | .includeFind c calls, s => (FindCall.applyAll calls (Find.on c)).bind s.includeFind

end CreateCall

/-- Runs a call that may refuse: the query after it, and the error if there was
one. -/
def attempt {α : Type} (call : α → Except QueryError α) (a : α) : α × Option QueryError :=
  match call a with
  | .ok b => (b, none)
  | .error e => (a, some e)

/-- Runs a program of calls, going on after each that refuses. -/
def runAll {α γ : Type} (apply : γ → α → Except QueryError α) (calls : List γ) (a : α) : α :=
  calls.foldl (fun a c => (attempt (apply c) a).1) a

/-- Runs a program of calls up to the first that refuses. -/
def runStrict {α γ : Type} (apply : γ → α → Except QueryError α) (calls : List γ) (a : α) :
    Except QueryError α :=
  calls.foldlM (fun a c => apply c a) a

/-- A program for a statement of one kind. -/
inductive Program where
  | find (calls : List FindCall)
  | count (calls : List SearchCall)
  | update (calls : List ChangeCall)
  | delete (calls : List SearchCall)
  | replace (calls : List ChangeCall)
  | insert (calls : List InsertCall)
  | create (calls : List CreateCall)

namespace Program

/-- The statement that a program builds on a collection, or its first error. -/
def build (p : Program) (c : CollectionRef) : Except QueryError Statement :=
  match p with
  | .find calls => (FindCall.applyAll calls (Find.on c)).map .find
  | .count calls => (runStrict SearchCall.apply calls (Search.on c)).map .count
  | .update calls => (runStrict ChangeCall.apply calls (Search.on c)).map .update
  | .delete calls => (runStrict SearchCall.apply calls (Search.on c)).map .delete
  | .replace calls => (runStrict ChangeCall.apply calls (Search.on c)).map .replace
  | .insert calls => (runStrict InsertCall.apply calls (Insert.into c)).map .insert
  | .create calls => (runStrict CreateCall.apply calls (Create.of c)).map .create

end Program

end Build

end QueryLayer
