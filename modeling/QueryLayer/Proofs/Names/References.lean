import QueryLayer.Proofs.Names.Enclosed

/-!
# References to fields

A reference is split at its last two points, so a text is recovered from its parts
by joining them again, whatever points stand further left (`display_parse`). The
other way round the parts are recovered if no point in them can be taken for one
that joins them (`separable_iff`). Between quotes nothing can be taken for a point
that joins: the parts are read off the text that a dialect writes, and with them the
reference (`parts_eq_of_write_eq`).
-/

namespace QueryLayer

namespace FieldRef

variable {cs before after : List Char} {s database collection field : String}

/-! ## Splitting at the last point -/

theorem forall_ne_point (h : '.' ∉ cs) : ∀ c ∈ cs.reverse, decide (c ≠ '.') = true := by
  intro c hc
  have hne : c ≠ '.' := fun heq => h (heq ▸ List.mem_reverse.1 hc)
  exact decide_eq_true hne

theorem splitLast_of_notMem (h : '.' ∉ cs) : splitLast cs = none := by
  have hdrop : cs.reverse.dropWhile (· ≠ '.') = [] := by
    rw [← List.append_nil cs.reverse, List.dropWhile_append_of_pos (forall_ne_point h)]
    rfl
  rw [splitLast, hdrop]

theorem splitLast_append (before : List Char) (h : '.' ∉ after) :
    splitLast (before ++ '.' :: after) = some (before, after) := by
  have hreverse : (before ++ '.' :: after).reverse = after.reverse ++ '.' :: before.reverse := by
    simp
  rw [splitLast, hreverse, List.takeWhile_append_of_pos (forall_ne_point h),
    List.dropWhile_append_of_pos (forall_ne_point h)]
  simp

/-- A text with a point has a last one. -/
theorem exists_last_point (h : '.' ∈ cs) :
    ∃ before after, cs = before ++ '.' :: after ∧ '.' ∉ after := by
  obtain ⟨after, before, hsplit, hnone⟩ := List.eq_append_cons_of_mem (List.mem_reverse.2 h)
  refine ⟨before.reverse, after.reverse, ?_, by simpa using hnone⟩
  rw [← List.reverse_reverse cs, hsplit]
  simp

/-! ## Parts and their text -/

theorem parse_of_field (h : '.' ∉ s.toList) : parse s = ⟨none, none, s⟩ := by
  rw [parse, splitLast_of_notMem h]
  rfl

theorem parse_of_collection (hs : s.toList = collection.toList ++ '.' :: field.toList)
    (hcollection : '.' ∉ collection.toList) (hfield : '.' ∉ field.toList) :
    parse s = ⟨none, some collection, field⟩ := by
  rw [parse, hs, splitLast_append _ hfield]
  simp only [splitLast_of_notMem hcollection, String.ofList_toList]

theorem parse_of_database
    (hs : s.toList = database.toList ++ '.' :: collection.toList ++ '.' :: field.toList)
    (hcollection : '.' ∉ collection.toList) (hfield : '.' ∉ field.toList) :
    parse s = ⟨some database, some collection, field⟩ := by
  rw [parse, hs, splitLast_append _ hfield]
  simp only [splitLast_append _ hcollection, String.ofList_toList]

theorem toList_display_collection :
    (display ⟨none, some collection, field⟩).toList = collection.toList ++ '.' :: field.toList := by
  rw [display, String.toList_intercalate]
  simp [parts, List.intercalate_cons_cons]

theorem toList_display_database : (display ⟨some database, some collection, field⟩).toList =
    database.toList ++ '.' :: collection.toList ++ '.' :: field.toList := by
  rw [display, String.toList_intercalate]
  simp [parts, List.intercalate_cons_cons]

/-- The parts of a reference can be told apart in its text: no point stands in the
field or the collection, and a database stands before a collection only. -/
structure Separable (f : FieldRef) : Prop where
  field : '.' ∉ f.field.toList
  collection : ∀ c ∈ f.collection, '.' ∉ c.toList
  database : f.database.isSome → f.collection.isSome

/-- A text is a field alone, or a field behind a collection, or one behind a
database with any points in it. -/
theorem exists_parts (s : String) : ∃ f : FieldRef, f.Separable ∧ parse s = f ∧ f.display = s := by
  by_cases hs : '.' ∈ s.toList
  · obtain ⟨before, after, hsplit, hfield⟩ := exists_last_point hs
    by_cases hbefore : '.' ∈ before
    · obtain ⟨database, collection, rfl, hcollection⟩ := exists_last_point hbefore
      refine ⟨⟨some (.ofList database), some (.ofList collection), .ofList after⟩,
        ⟨by simpa using hfield, by simpa using hcollection, fun _ => rfl⟩,
        parse_of_database ?_ ?_ ?_, String.toList_injective ?_⟩
      · simpa using hsplit
      · simpa using hcollection
      · simpa using hfield
      · rw [toList_display_database, hsplit]
        simp
    · refine ⟨⟨none, some (.ofList before), .ofList after⟩,
        ⟨by simpa using hfield, by simpa using hbefore, fun _ => rfl⟩,
        parse_of_collection ?_ ?_ ?_, String.toList_injective ?_⟩
      · simpa using hsplit
      · simpa using hbefore
      · simpa using hfield
      · rw [toList_display_collection, hsplit]
        simp
  · exact ⟨⟨none, none, s⟩, ⟨hs, by simp, by simp⟩, parse_of_field hs, by simp [display, parts]⟩

/-- **The parts of a text joined again are the text.** -/
theorem display_parse (s : String) : (parse s).display = s := by
  obtain ⟨f, -, rfl, hdisplay⟩ := exists_parts s
  exact hdisplay

/-- **References whose parts can be told apart** are those that their text is parsed
as. -/
theorem separable_iff {f : FieldRef} : f.Separable ↔ parse f.display = f := by
  constructor
  · intro h
    obtain ⟨hfield, hcollection, hdatabase⟩ := h
    obtain ⟨database, collection, field⟩ := f
    cases collection with
    | none =>
      obtain rfl : database = none := by simpa using hdatabase
      have hdisplay : display ⟨none, none, field⟩ = field := by simp [display, parts]
      rw [hdisplay]
      exact parse_of_field hfield
    | some collection =>
      have hdotless : '.' ∉ collection.toList := hcollection collection rfl
      cases database with
      | none => exact parse_of_collection toList_display_collection hdotless hfield
      | some database => exact parse_of_database toList_display_database hdotless hfield
  · intro h
    obtain ⟨g, hg, hparse, -⟩ := exists_parts f.display
    rw [← h, hparse]
    exact hg

end FieldRef

namespace Sql

open Fragment

/-- Legible fragments of one text hold the same between quotes. -/
theorem quoted_eq_of_write_eq {q : Text.Quotes} (hq : Known q) {f g : Fragment} (hf : Legible f)
    (hg : Legible g) (h : write q f = write q g) : quoted f = quoted g := by
  have hlexed : some (lexed f) = some (lexed g) := by
    rw [lexed, lexed, ← lexemes_labelled hq hf, ← lexemes_labelled hq hg, ← map_write_eq_labelled,
      ← map_write_eq_labelled, h]
  rw [← filterMap_quoted?_lexed, ← filterMap_quoted?_lexed, Option.some.inj hlexed]

/-- **The parts of a reference are read off its text in a dialect.** -/
theorem parts_eq_of_write_eq {d : Dialect} (hd : d ∈ Dialect.builtin) {f g : FieldRef}
    (h : d.write (fieldName f) = d.write (fieldName g)) : f.parts = g.parts := by
  have hquoted := quoted_eq_of_write_eq (known_of_builtin hd) (legible_fieldName f)
    (legible_fieldName g) (String.ofList_injective h)
  rw [quoted_fieldName, quoted_fieldName, fieldNames, fieldNames] at hquoted
  refine List.map_injective_iff.2 (fun n m hnm => ?_) hquoted
  exact String.toList_injective (congrArg Prod.snd hnm)

/-- **References round-trip.** The parts of any text joined again are the text. A
reference is what its text is parsed as, exactly if no point stands in its field or
its collection and a database stands before a collection only. And no dialect of the
library writes the references of two texts alike. -/
theorem references_round_trip :
    (∀ s, (FieldRef.parse s).display = s) ∧
      (∀ f : FieldRef, f.Separable ↔ FieldRef.parse f.display = f) ∧
      ∀ d ∈ Dialect.builtin, ∀ s t, d.write (fieldName (.parse s)) = d.write (fieldName (.parse t)) →
        s = t := by
  refine ⟨FieldRef.display_parse, fun _ => FieldRef.separable_iff, fun d hd s t h => ?_⟩
  rw [← FieldRef.display_parse s, ← FieldRef.display_parse t, FieldRef.display, FieldRef.display,
    parts_eq_of_write_eq hd h]

theorem references_of_crowdedPoints_round_trip :
    (FieldRef.parse "..a.b.").display = "..a.b." ∧
      FieldRef.parse (FieldRef.display ⟨some "shop.eu", some "", "total"⟩) =
        ⟨some "shop.eu", some "", "total"⟩ ∧
      Dialect.mssql.write (fieldName (.parse "a].[b")) ≠ Dialect.mssql.write (fieldName (.parse "a.b")) := by
  obtain ⟨hdisplay, hparse, hwrite⟩ := references_round_trip
  have hd : Dialect.mssql ∈ Dialect.builtin := by simp [Dialect.builtin]
  have hseparable : FieldRef.Separable ⟨some "shop.eu", some "", "total"⟩ :=
    ⟨by decide, by decide, by decide⟩
  refine ⟨hdisplay _, (hparse _).1 hseparable, fun h => ?_⟩
  exact absurd (hwrite _ hd _ _ h) (by decide)

end Sql

end QueryLayer
