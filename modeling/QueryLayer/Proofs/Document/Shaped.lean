import QueryLayer.Proofs.Document.Pipeline
import Mathlib.Data.List.Induction

/-!
# What a find returns of its documents

A find returns documents as they are, projected on its columns, or condensed to
groups. Each returned document so comes from a group of documents, which is of
one document where nothing is grouped (`exists_origins_of_runs_shaping`). A sort
key is carried if the returned document still has what it asks for
(`Shapes.sortValue`), and lost if the returned documents have nothing at its
path (`Shapes.eq_none`).
-/

namespace QueryLayer

namespace Keyed

variable {κ α : Type} [DecidableEq κ] {key : κ} {value : α} {pairs : List (κ × α)}

/-- Of the values of a key the last one stays. -/
theorem get?_ofPairs : get? key (ofPairs pairs) = get? key pairs.reverse := by
  induction pairs using List.reverseRecOn with
  | nil => rfl
  | append_singleton pairs p ih =>
    rw [ofPairs_concat, List.reverse_concat]
    by_cases h : key = p.1
    · rw [h, get?_put_self, get?, if_pos rfl]
    · rw [get?_put_of_ne h, ih, get?, if_neg (Ne.symm h)]

theorem mem_keys_ofPairs : key ∈ (ofPairs pairs).map Prod.fst ↔ key ∈ pairs.map Prod.fst := by
  rw [← not_iff_not, ← get?_eq_none_iff, get?_ofPairs, get?_eq_none_iff, List.map_reverse,
    List.mem_reverse]

/-- Each key stands once. -/
theorem nodup_keys_ofPairs : ((ofPairs pairs).map Prod.fst).Nodup := by
  induction pairs using List.reverseRecOn with
  | nil => exact List.nodup_nil
  | append_singleton pairs p ih =>
    rw [ofPairs_concat, map_fst_put]
    split
    · exact ih
    · next hnew => exact List.concat_eq_append ▸ (List.nodup_concat _ _).2 ⟨hnew, ih⟩

theorem mem_ofPairs : (key, value) ∈ ofPairs pairs ↔ get? key pairs.reverse = some value := by
  rw [← get?_ofPairs, get?_eq_some_iff nodup_keys_ofPairs]

theorem mem_of_mem_ofPairs {p : κ × α} (h : p ∈ ofPairs pairs) : p ∈ pairs :=
  List.mem_reverse.1 (mem_of_get?_eq_some (mem_ofPairs.1 h))

/-- A key that was put has a value, one of those it was put with. -/
theorem exists_mem_ofPairs (h : key ∈ pairs.map Prod.fst) :
    ∃ value, (key, value) ∈ ofPairs pairs ∧ (key, value) ∈ pairs := by
  obtain ⟨⟨_, value⟩, hmem, rfl⟩ := List.mem_map.1 (mem_keys_ofPairs.2 h)
  exact ⟨value, hmem, mem_of_mem_ofPairs hmem⟩

end Keyed

namespace Document

/-! ## Columns -/

section Columns

variable {store : Store} {base : CollectionRef} {groups : List Target} {ps : List Projection}
  {p : Projection} {a : Aggregation} {g : List Doc} {d doc : Doc}

/-- The find returns groups of documents. -/
def grouped (groups : List Target) (ps : List Projection) : Bool :=
  ps.any (·.target.aggregation.isSome) || !groups.isEmpty

/-- The parts of the key of the groups. -/
def groupParts (base : CollectionRef) (groups : List Target) : List (String × String) :=
  Keyed.ofPairs (groups.map fun t => (t.field.field, path base t.field))

/-- The field of an aggregated column. -/
def aggregateField (base : CollectionRef) (p : Projection) : Option (String × GroupField) :=
  p.target.aggregation.map fun a =>
    (Stage.aggregateName p a, .aggregate a (path base p.target.field))

/-- The fields of a grouping. -/
def groupFields (base : CollectionRef) (groups : List Target) (ps : List Projection) :
    List (String × GroupField) :=
  Keyed.ofPairs ((identity, .key (groupParts base groups)) :: ps.filterMap (aggregateField base))

/-- The field of a column in a projection. -/
def projectField (base : CollectionRef) (p : Projection) : String × ProjectField :=
  match p.label with
  | some label => (label, .copy (path base p.target.field))
  | none => (path base p.target.field, .keep)

/-- The fields of a projection. -/
def projectFields (base : CollectionRef) (ps : List Projection) : List (String × ProjectField) :=
  Keyed.ofPairs (ps.map (projectField base))

theorem shaping_eq : Stage.shaping base groups ps =
    if grouped groups ps then [.group (groupFields base groups ps)]
    else if ps.isEmpty then [] else [.project (projectFields base ps)] :=
  rfl

/-- The name of a column in the returned documents. -/
def columnName (base : CollectionRef) (p : Projection) : String :=
  match p.target.aggregation with
  | some a => Stage.aggregateName p a
  | none => p.label.getD (path base p.target.field)

/-- The columns with the name of this one all have its value. -/
def Alone (base : CollectionRef) (ps : List Projection) (p : Projection) : Prop :=
  ∀ q ∈ ps, columnName base q = columnName base p →
    q.target.aggregation = p.target.aggregation ∧
      path base q.target.field = path base p.target.field

/-- No aggregation takes the place of the key of the groups. -/
def KeepsKey (base : CollectionRef) (ps : List Projection) : Prop :=
  ∀ p ∈ ps, p.target.aggregation.isSome → columnName base p ≠ identity

theorem aggregateField_eq_some {f : String × GroupField} (h : aggregateField base p = some f) :
    ∃ a, p.target.aggregation = some a ∧
      f = (columnName base p, .aggregate a (path base p.target.field)) := by
  obtain ⟨a, ha, rfl⟩ := Option.map_eq_some_iff.1 h
  exact ⟨a, ha, by rw [columnName, ha]⟩

/-- A field of a grouping is its key or an aggregated column. -/
theorem eq_of_mem_groupFields_pairs {f : String × GroupField}
    (h : f ∈ (identity, GroupField.key (groupParts base groups)) ::
      ps.filterMap (aggregateField base)) :
    f = (identity, .key (groupParts base groups)) ∨
      ∃ p ∈ ps, ∃ a, p.target.aggregation = some a ∧
        f = (columnName base p, .aggregate a (path base p.target.field)) := by
  refine (List.mem_cons.1 h).imp_right fun h => ?_
  obtain ⟨p, hp, hf⟩ := List.mem_filterMap.1 h
  exact ⟨p, hp, aggregateField_eq_some hf⟩

/-- The groups have their key. -/
theorem key_mem_groupFields (h : KeepsKey base ps) :
    (identity, .key (groupParts base groups)) ∈ groupFields base groups ps := by
  have hpair : (identity, GroupField.key (groupParts base groups)) ∈
      (identity, .key (groupParts base groups)) :: ps.filterMap (aggregateField base) :=
    List.mem_cons_self
  obtain ⟨value, hmem, hvalue⟩ :=
    Keyed.exists_mem_ofPairs (List.mem_map_of_mem (f := Prod.fst) hpair)
  rcases eq_of_mem_groupFields_pairs hvalue with hkey | ⟨p, hp, a, ha, haggregate⟩
  · exact hkey ▸ hmem
  · exact absurd (Prod.mk.inj haggregate).1.symm (h p hp (by rw [ha]; rfl))

/-- A column that is alone with its name, and not called like the identity, has
its aggregation. -/
theorem aggregate_mem_groupFields (hidentity : columnName base p ≠ identity) (hp : p ∈ ps)
    (ha : p.target.aggregation = some a) (halone : Alone base ps p) :
    (columnName base p, .aggregate a (path base p.target.field)) ∈ groupFields base groups ps := by
  have hpair : (columnName base p, GroupField.aggregate a (path base p.target.field)) ∈
      (identity, .key (groupParts base groups)) :: ps.filterMap (aggregateField base) := by
    refine List.mem_cons_of_mem _ (List.mem_filterMap.2 ⟨p, hp, ?_⟩)
    rw [aggregateField, columnName, ha, Option.map_some]
  obtain ⟨value, hmem, hvalue⟩ :=
    Keyed.exists_mem_ofPairs (List.mem_map_of_mem (f := Prod.fst) hpair)
  rcases eq_of_mem_groupFields_pairs hvalue with heq | ⟨q, hq, b, hb, heq⟩
  · exact absurd (Prod.mk.inj heq).1 hidentity
  · obtain ⟨hname, rfl⟩ := Prod.mk.inj heq
    obtain ⟨haggregation, hpath⟩ := halone q hq hname.symm
    obtain rfl : b = a := Option.some.inj (hb.symm.trans (haggregation.trans ha))
    exact hpath ▸ hmem

theorem fst_projectField (h : p.target.aggregation = none) :
    (projectField base p).1 = columnName base p := by
  rw [columnName, h, projectField]
  cases p.label <;> rfl

theorem source_projectField (base : CollectionRef) (p : Projection) :
    (projectField base p).2.source (projectField base p).1 = path base p.target.field := by
  rw [projectField]
  cases p.label <;> rfl

/-- A column that is alone with its name is given by some field. -/
theorem exists_mem_projectFields (hplain : ∀ q ∈ ps, q.target.aggregation = none) (hp : p ∈ ps)
    (halone : Alone base ps p) : ∃ value, (columnName base p, value) ∈ projectFields base ps ∧
      value.source (columnName base p) = path base p.target.field := by
  have hname : columnName base p ∈ (ps.map (projectField base)).map Prod.fst := by
    rw [← fst_projectField (hplain p hp)]
    exact List.mem_map_of_mem (f := Prod.fst) (List.mem_map_of_mem hp)
  -- the field that stays may be that of another column with the name
  obtain ⟨value, hmem, hvalue⟩ := Keyed.exists_mem_ofPairs hname
  obtain ⟨q, hq, heq⟩ := List.mem_map.1 hvalue
  have hqname : columnName base q = columnName base p := by
    rw [← fst_projectField (hplain q hq), heq]
  have hsource := source_projectField base q
  rw [heq, (halone q hq hqname).2] at hsource
  exact ⟨value, hmem, hsource⟩

end Columns

/-! ## Groups of documents -/

section Origins

variable {store : Store} {base : CollectionRef} {groups : List Target} {ps : List Projection}
  {docs out g : List Doc} {origins origins' : List (List Doc)}

/-- What a find makes of a group of documents. Where it returns no groups, each
document is one for itself. -/
def Shapes (store : Store) (base : CollectionRef) (groups : List Target) (ps : List Projection)
    (g : List Doc) (doc : Doc) : Prop :=
  if grouped groups ps then
    Condenses store (groupParts base groups) (groupFields base groups ps) g doc
  else ∃ d, g = [d] ∧ if ps.isEmpty then doc = d else Projects (projectFields base ps) d doc

/-- The groups that a find makes of documents. -/
structure Origins (base : CollectionRef) (groups : List Target) (ps : List Projection)
    (docs : List Doc) (origins : List (List Doc)) : Prop where
  perm : origins.flatten.Perm docs
  partition : grouped groups ps → Partition (keyOf (groupParts base groups)) docs origins

/-- Groups may come in any order. -/
theorem Partition.of_perm {α κ : Type} {key : α → κ} {docs : List α} {origins origins' : List (List α)}
    (h : Partition key docs origins) (hperm : origins.Perm origins') : Partition key docs origins' where
  perm := hperm.symm.flatten.trans h.perm
  ne_nil g hg := h.ne_nil g (hperm.mem_iff.2 hg)
  same g hg := h.same g (hperm.mem_iff.2 hg)
  apart := hperm.pairwise h.apart fun hapart b hb a ha => (hapart a ha b hb).symm

theorem Origins.of_perm (h : Origins base groups ps docs origins) (hperm : origins.Perm origins') :
    Origins base groups ps docs origins' :=
  ⟨hperm.symm.flatten.trans h.perm, fun hgrouped => (h.partition hgrouped).of_perm hperm⟩

/-- Every returned document comes from a group. -/
theorem exists_origins_of_runs_shaping (hkey : KeepsKey base ps)
    (h : Runs store (Stage.shaping base groups ps) docs out) :
    ∃ origins, Origins base groups ps docs origins ∧
      List.Forall₂ (Shapes store base groups ps) origins out := by
  rw [shaping_eq] at h
  by_cases hgrouped : grouped groups ps
  · rw [if_pos hgrouped, runs_singleton] at h
    obtain ⟨origins, hpartition, hcondenses⟩ := h _ (key_mem_groupFields hkey)
    exact ⟨origins, ⟨hpartition.perm, fun _ => hpartition⟩,
      hcondenses.imp fun g doc hdoc => by rwa [Shapes, if_pos hgrouped]⟩
  · -- nothing is grouped, so each document is a group of one
    rw [if_neg hgrouped] at h
    have hsingle : ∀ d doc, Shapes store base groups ps [d] doc ↔
        if ps.isEmpty then doc = d else Projects (projectFields base ps) d doc := by
      intro d doc
      rw [Shapes, if_neg hgrouped]
      simp
    have hflatten : (docs.map ([·])).flatten = docs := by
      rw [← List.flatMap_def, List.flatMap_singleton']
    refine ⟨docs.map ([·]), ⟨.of_eq hflatten, fun htrue => absurd htrue hgrouped⟩, ?_⟩
    rw [List.forall₂_map_left_iff]
    simp only [hsingle]
    split at h
    · next hempty =>
      obtain rfl : out = docs := h
      simp only [hempty, if_true]
      exact List.forall₂_same.2 fun _ _ => rfl
    · next hcolumns =>
      simp only [hcolumns]
      exact runs_singleton.1 h

end Origins

/-! ## What a sort key asks for -/

section Carried

variable {store : Store} {base : CollectionRef} {groups : List Target} {ps : List Projection}
  {p : Projection} {f : FieldRef} {g : List Doc} {doc : Doc}

/-- The column that a sort key calls by its label. -/
def labelled (ps : List Projection) (f : FieldRef) : Option Projection :=
  ps.find? fun p => p.label.map FieldRef.plain = some f

/-- The value of a sort key for a group of documents: the column that it calls
by its label, and else the field of the documents. -/
def sortValue (store : Store) (base : CollectionRef) (ps : List Projection) (f : FieldRef)
    (g : List Doc) : Option Value :=
  match labelled ps f with
  | some p =>
    match p.target.aggregation with
    | some a => store.aggregate a (g.map (· (path base p.target.field)))
    | none => g.head?.bind (· (path base p.target.field))
  | none => g.head?.bind (· (path base f))

/-- What the sort key asks for is still there in the returned documents. A label
must be that of one column only, and of an aggregated one for groups. Another
field must lie in a column that keeps its name or, like the identity, be
returned unasked; groups have no field that could be asked for. -/
def Carried (base : CollectionRef) (groups : List Target) (ps : List Projection) (f : FieldRef) :
    Prop :=
  match labelled ps f with
  | some p => Alone base ps p ∧ (grouped groups ps → p.target.aggregation.isSome)
  | none => grouped groups ps = false ∧
    (ps = [] ∨
      (∃ p ∈ ps, p.label = none ∧ Alone base ps p ∧
        ∃ rest, Below rest ∧ path base f = path base p.target.field ++ rest) ∨
      (∃ rest, Below rest ∧ path base f = identity ++ rest) ∧
        ∀ p ∈ ps, ¬ Overlap identity (columnName base p))

theorem below_empty : Below "" := by
  intro c hc
  simp at hc

/-- A find without groups has no aggregated columns. -/
theorem aggregation_eq_none (h : ¬ grouped groups ps) : ∀ p ∈ ps, p.target.aggregation = none := by
  intro p hp
  by_contra hsome
  refine h ?_
  rw [grouped, Bool.or_eq_true, List.any_eq_true]
  exact .inl ⟨p, hp, Option.isSome_iff_ne_none.2 hsome⟩

/-- The label of a column is its name and the path of the key. -/
theorem columnName_of_labelled (base : CollectionRef) (h : labelled ps f = some p) :
    p ∈ ps ∧ columnName base p = path base f := by
  refine ⟨List.mem_of_find?_eq_some h, ?_⟩
  have hlabel : p.label.map FieldRef.plain = some f := by simpa using List.find?_some h
  obtain ⟨label, hsome, rfl⟩ := Option.map_eq_some_iff.1 hlabel
  have hpath : path base (.plain label) = label := rfl
  rw [columnName, hpath]
  cases p.target.aggregation <;> simp [Stage.aggregateName, hsome]

/-- The fields of a projection are named like its columns. -/
theorem exists_columnName_of_mem (hplain : ∀ q ∈ ps, q.target.aggregation = none)
    {field : String × ProjectField} (h : field ∈ projectFields base ps) :
    ∃ p ∈ ps, field.1 = columnName base p := by
  obtain ⟨p, hp, rfl⟩ := List.mem_map.1 (Keyed.mem_of_mem_ofPairs h)
  exact ⟨p, hp, fst_projectField (hplain p hp)⟩

/-- A column that is alone with its name, and what lies in it. -/
theorem Projects.column {d : Doc} (h : Projects (projectFields base ps) d doc)
    (hplain : ∀ q ∈ ps, q.target.aggregation = none) (hp : p ∈ ps) (halone : Alone base ps p)
    {rest : String} (hrest : Below rest) :
    doc (columnName base p ++ rest) = d (path base p.target.field ++ rest) := by
  obtain ⟨value, hmem, hsource⟩ := exists_mem_projectFields hplain hp halone
  rw [h.field _ hmem rest hrest, hsource]

/-- A column with a label, as the returned documents have it. -/
theorem Shapes.labelled (h : Shapes store base groups ps g doc) (hkey : KeepsKey base ps)
    (hlabel : labelled ps f = some p) (halone : Alone base ps p)
    (haggregated : grouped groups ps → p.target.aggregation.isSome) :
    doc (path base f) = sortValue store base ps f g := by
  obtain ⟨hp, hname⟩ := columnName_of_labelled base hlabel
  rw [Shapes] at h
  rw [← hname]
  split at h
  · next hgrouped =>
    obtain ⟨a, ha⟩ := Option.isSome_iff_exists.1 (haggregated hgrouped)
    have hidentity : columnName base p ≠ identity := hkey p hp (by rw [ha]; rfl)
    simp only [sortValue, hlabel, ha]
    exact h.aggregate _ _ _ (aggregate_mem_groupFields hidentity hp ha halone)
  · next hgrouped =>
    have hplain := aggregation_eq_none hgrouped
    obtain ⟨d, rfl, hdoc⟩ := h
    rw [if_neg (by simpa using List.ne_nil_of_mem hp)] at hdoc
    have hcolumn := hdoc.column hplain hp halone below_empty
    simpa [sortValue, hlabel, hplain p hp] using hcolumn

/-- A field without a label, as the returned documents have it. -/
theorem Shapes.field (h : Shapes store base groups ps g doc) (hlabel : Document.labelled ps f = none)
    (hcarried : Carried base groups ps f) : doc (path base f) = sortValue store base ps f g := by
  simp only [Carried, hlabel] at hcarried
  obtain ⟨hgrouped, hcarried⟩ := hcarried
  have hplain := aggregation_eq_none (Bool.eq_false_iff.1 hgrouped)
  rw [Shapes, if_neg (Bool.eq_false_iff.1 hgrouped)] at h
  obtain ⟨d, rfl, hdoc⟩ := h
  have hvalue : sortValue store base ps f [d] = d (path base f) := by simp [sortValue, hlabel]
  rw [hvalue]
  split at hdoc
  · rw [hdoc]
  · next hcolumns =>
    rcases hcarried with hempty | ⟨p, hp, hunlabelled, halone, rest, hrest, hpath⟩ |
      ⟨⟨rest, hrest, hpath⟩, hapart⟩
    · exact absurd (by rw [hempty]; rfl) hcolumns
    · -- an unlabelled column is called by its own path
      have hname : columnName base p = path base p.target.field := by
        rw [columnName, hplain p hp, hunlabelled]
        rfl
      rw [hpath, ← hdoc.column hplain hp halone hrest, hname]
    · -- no field of the projection touches the identity
      rw [hpath]
      refine hdoc.kept_identity (fun field hfield => ?_) rest hrest
      obtain ⟨p, hp, hname⟩ := exists_columnName_of_mem hplain hfield
      exact hname ▸ hapart p hp

/-- **The returned documents have what the key asks for.** -/
theorem Shapes.sortValue (h : Shapes store base groups ps g doc) (hkey : KeepsKey base ps)
    (hcarried : Carried base groups ps f) :
    doc (path base f) = Document.sortValue store base ps f g := by
  cases hlabel : Document.labelled ps f with
  | some p =>
    have hcolumn := hcarried
    simp only [Carried, hlabel] at hcolumn
    exact h.labelled hkey hlabel hcolumn.1 hcolumn.2
  | none => exact h.field hlabel hcarried

/-! ## Lost keys -/

/-- The returned documents have nothing of what the sort key asks for: it lies
neither in a column nor in the identity. -/
def Lost (base : CollectionRef) (groups : List Target) (ps : List Projection) (f : FieldRef) : Prop :=
  (grouped groups ps ∨ ps ≠ []) ∧ ¬ Overlap identity (path base f) ∧
    ∀ p ∈ ps, (grouped groups ps → p.target.aggregation.isSome) →
      ¬ Overlap (columnName base p) (path base f)

theorem Shapes.eq_none (h : Shapes store base groups ps g doc) (hlost : Lost base groups ps f) :
    doc (path base f) = none := by
  obtain ⟨hshaped, hidentity, hcolumns⟩ := hlost
  rw [Shapes] at h
  split at h
  · refine h.nothing_else _ fun field hfield => ?_
    rcases eq_of_mem_groupFields_pairs (Keyed.mem_of_mem_ofPairs hfield) with rfl | ⟨p, hp, a, ha, rfl⟩
    · exact hidentity
    · exact hcolumns p hp fun _ => by rw [ha]; rfl
  · next hgrouped =>
    obtain ⟨d, -, hdoc⟩ := h
    rw [if_neg (by simpa using hshaped.resolve_left hgrouped)] at hdoc
    refine hdoc.nothing_else _ hidentity fun field hfield => ?_
    obtain ⟨p, hp, hname⟩ := exists_columnName_of_mem (aggregation_eq_none hgrouped) hfield
    exact hname ▸ hcolumns p hp fun htrue => absurd htrue hgrouped

end Carried

end Document

end QueryLayer
