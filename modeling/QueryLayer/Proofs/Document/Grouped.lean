import QueryLayer.Proofs.Document.Changes
import QueryLayer.Proofs.Document.Joined
import QueryLayer.Proofs.Document.Sorted

/-!
# The identity of a group

A find that groups has one stage for it, and the documents that get the same
identity there are one group. The identity is an object with a member for each
key, under the bare name of its field, and the value is taken from the path of
the field. So two keys with one bare name, such as a field of the base collection
and one of a joined collection, have one member between them, and the later one
takes it.

`find_groups` says which documents are one group: those that agree at the path
of every key that has no later key with its bare name.
-/

namespace QueryLayer

namespace Keyed

variable {κ α β : Type} [DecidableEq κ] {key : κ} {pairs : List (κ × α)}

theorem get?_map_snd (f : α → β) :
    get? key (pairs.map fun p => (p.1, f p.2)) = (get? key pairs).map f := by
  induction pairs with
  | nil => rfl
  | cons p rest ih =>
    rw [List.map_cons, get?, get?]
    split
    · rfl
    · exact ih

/-- Pairs without a value are left out. -/
theorem get?_filterMap_snd (f : α → Option β) (hnodup : (pairs.map Prod.fst).Nodup) :
    get? key (pairs.filterMap fun p => (f p.2).map (p.1, ·)) = (get? key pairs).bind f := by
  induction pairs with
  | nil => rfl
  | cons p rest ih =>
    rw [List.map_cons, List.nodup_cons] at hnodup
    have hrest := ih hnodup.2
    by_cases hkey : p.1 = key
    · -- the key stands nowhere behind
      subst hkey
      have hnone : get? p.1 rest = none := get?_eq_none_iff.2 hnodup.1
      rw [hnone, Option.bind_none] at hrest
      rw [get?, if_pos rfl, Option.bind_some, List.filterMap_cons]
      cases hf : f p.2 with
      | none => simpa using hrest
      | some b => simp [get?]
    · rw [get?, if_neg hkey, ← hrest, List.filterMap_cons]
      cases hf : f p.2 with
      | none => rfl
      | some b => simp [get?, hkey]

end Keyed

namespace Document

/-! ## The stage that shapes documents -/

/-- The content of a stage that shapes documents. -/
inductive Shape where
  | group (fields : List (String × Json))
  | project (fields : List (String × Json))

/-- The stage as a shape, where it is one. -/
def Shape.read : Json → Option Shape
  | .object [("$group", .object fields)] => some (.group fields)
  | .object [("$project", .object fields)] => some (.project fields)
  | _ => none

/-- What a stage shapes. -/
def Stage.shape : Stage → Option Shape
  | .group fields => some (.group (fields.map fun f => (f.1, f.2.toJson)))
  | .project fields => some (.project (fields.map fun f => (f.1, f.2.toJson)))
  | _ => none

theorem Shape.read_toJson (stage : Stage) : Shape.read stage.toJson = stage.shape := by
  cases stage with
  | unwind collection keepEmpty => cases keepEmpty <;> rfl
  | lookup | filter | group | project | sort | skip | limit | count => rfl

/-- **A pipeline has the shapes of its shaping stage** and no others. -/
theorem shapes_pipeline (base : CollectionRef) (p : Plan) (ps : List Projection) :
    ((Stage.pipeline base p ps).map Stage.toJson).filterMap Shape.read =
      (Stage.shaping base p.groups ps).filterMap Stage.shape := by
  have hjoins : (p.joins.flatMap Stage.ofJoin).filterMap Stage.shape = [] := by
    rw [List.filterMap_eq_nil_iff]
    intro stage hstage
    obtain ⟨j, -, hj⟩ := List.mem_flatMap.1 hstage
    rcases List.mem_pair.1 hj with rfl | rfl
    · rfl
    · rfl
  have hfiltering : (Stage.filtering base p.predicates).filterMap Stage.shape = [] := by
    rw [Stage.filtering]
    split <;> rfl
  have hsorting : (Stage.sorting base p.sorts).filterMap Stage.shape = [] := by
    rw [Stage.sorting]
    split <;> rfl
  have hwindow : (Stage.ofWindow p.window).filterMap Stage.shape = [] := by
    cases p.window with
    | none => rfl
    | some w =>
      rw [Stage.ofWindow]
      split <;> rfl
  rw [List.filterMap_map]
  have hread : Shape.read ∘ Stage.toJson = Stage.shape := funext Shape.read_toJson
  simp only [hread, Stage.pipeline, List.filterMap_append, hjoins, hfiltering, hsorting, hwindow,
    List.nil_append, List.append_nil]

/-- The command of a find, with its one shaping stage. -/
theorem find_toJson {s : Find} {values : List Value} {cmd : Command}
    (h : render (.find s) values = .ok cmd) :
    ∃ stages : List Json,
      cmd.toJson = .object [("operation", .string "aggregate"),
        ("collection", .string s.collection.name), ("pipeline", .array stages)] ∧
      stages.filterMap Shape.read =
        (Stage.shaping s.collection (Entry.partsAll s.entries).groups s.projection).filterMap
          Stage.shape := by
  obtain ⟨p, hp, rfl⟩ := find_eq_ok.1 h
  refine ⟨(Stage.pipeline s.collection p s.projection).map Stage.toJson, rfl, ?_⟩
  rw [shapes_pipeline, (Plan.hasParts_of_ofEntries hp).groups]

/-! ## Identities -/

section Identity

variable {base : CollectionRef} {groups : List Target} {ps : List Projection}
  {parts : List (String × String)} {d d' : Doc}

/-- The path of an expression for the value there. What other expressions stand
for is left out. -/
def pathOf : Json → Option String
  | .string s =>
    match s.toList with
    | '$' :: path => some (String.ofList path)
    | _ => none
  | _ => none

theorem pathOf_valueAt (path : String) : pathOf (valueAt path) = some path := by
  have hpath : ("$" ++ path).toList = '$' :: path.toList := by simp
  rw [valueAt, pathOf]
  simp only [hpath, String.ofList_toList]

/-- The identity that a grouping gives to a document: the members that have a
value there. -/
def identityOf (id : Json) (doc : Doc) : List (String × Value) :=
  match id with
  | .object members => members.filterMap fun m => ((pathOf m.2).bind doc).map (m.1, ·)
  | _ => []

/-- The identity has a member for each part that has a value. -/
theorem identityOf_key (hparts : parts ≠ []) (doc : Doc) :
    identityOf (GroupField.key parts).toJson doc =
      parts.filterMap fun p => (doc p.2).map (p.1, ·) := by
  have hjson : (GroupField.key parts).toJson = .object (parts.map fun p => (p.1, valueAt p.2)) := by
    cases parts with
    | nil => exact absurd rfl hparts
    | cons p parts => rfl
  rw [hjson, identityOf, List.filterMap_map]
  simp only [Function.comp_def, pathOf_valueAt, Option.bind_some]

/-- **Documents have one identity if they agree at every part.** -/
theorem identityOf_eq_iff (hparts : parts ≠ []) (hnodup : (parts.map Prod.fst).Nodup) :
    identityOf (GroupField.key parts).toJson d = identityOf (GroupField.key parts).toJson d' ↔
      ∀ part ∈ parts, d part.2 = d' part.2 := by
  rw [identityOf_key hparts, identityOf_key hparts]
  constructor
  · rintro h ⟨name, path⟩ hpart
    have hget := congrArg (Keyed.get? name) h
    rw [Keyed.get?_filterMap_snd d hnodup, Keyed.get?_filterMap_snd d' hnodup,
      (Keyed.get?_eq_some_iff hnodup).2 hpart] at hget
    exact hget
  · intro h
    refine List.filterMap_congr fun part hpart => ?_
    rw [h part hpart]

/-! ## Keys that stay -/

/-- No later key has the bare name of this one. -/
def Lasts (groups : List Target) (t : Target) : Prop :=
  ∃ before after, groups = before ++ t :: after ∧ ∀ u ∈ after, u.field.field ≠ t.field.field

/-- The parts of the identity are the keys that stay. -/
theorem mem_groupParts {part : String × String} : part ∈ groupParts base groups ↔
    ∃ t, Lasts groups t ∧ part = (t.field.field, path base t.field) := by
  obtain ⟨name, path'⟩ := part
  have hfst : ∀ ts : List Target, (ts.map fun t => (t.field.field, path base t.field)).map Prod.fst =
      ts.map (·.field.field) := fun ts => List.map_map
  rw [groupParts, Keyed.lastStay_ofPairs.last]
  constructor
  · rintro ⟨before, after, hgroups, hnot⟩
    obtain ⟨us, vs, rfl, -, hvs⟩ := List.map_eq_append_iff.1 hgroups
    obtain ⟨t, ws, rfl, hpair, rfl⟩ := List.map_eq_cons_iff.1 hvs
    cases hpair
    rw [hfst] at hnot
    exact ⟨t, ⟨us, ws, rfl, fun u hu hname => hnot (hname ▸ List.mem_map_of_mem hu)⟩, rfl⟩
  · rintro ⟨t, ⟨us, ws, rfl, hafter⟩, hpart⟩
    cases hpart
    refine ⟨us.map _, ws.map _, by rw [List.map_append, List.map_cons], ?_⟩
    rw [hfst, List.mem_map]
    rintro ⟨u, hu, hname⟩
    exact hafter u hu hname

theorem groupParts_ne_nil (hgroups : groups ≠ []) : groupParts base groups ≠ [] := by
  obtain ⟨t, ht⟩ := List.exists_mem_of_ne_nil groups hgroups
  obtain ⟨value, hmem, -⟩ := Keyed.exists_mem_ofPairs
    (List.mem_map_of_mem (f := Prod.fst) (List.mem_map_of_mem (f := fun t : Target =>
      (t.field.field, path base t.field)) ht))
  exact List.ne_nil_of_mem hmem

/-- The documents agree at the path of the field. -/
def AgreeAt (base : CollectionRef) (d d' : Doc) (t : Target) : Prop :=
  d (path base t.field) = d' (path base t.field)

/-- **Documents are one group if they agree at the keys that stay.** -/
theorem identityOf_groupParts_eq_iff (hgroups : groups ≠ []) :
    identityOf (GroupField.key (groupParts base groups)).toJson d =
        identityOf (GroupField.key (groupParts base groups)).toJson d' ↔
      ∀ t, Lasts groups t → AgreeAt base d d' t := by
  rw [identityOf_eq_iff (groupParts_ne_nil hgroups) Keyed.nodup_keys_ofPairs]
  constructor
  · intro h t ht
    exact h _ (mem_groupParts.2 ⟨t, ht, rfl⟩)
  · intro h part hpart
    obtain ⟨t, ht, rfl⟩ := mem_groupParts.1 hpart
    exact h t ht

theorem Lasts.mem {t : Target} (h : Lasts groups t) : t ∈ groups := by
  obtain ⟨before, after, rfl, -⟩ := h
  exact List.mem_append_right _ List.mem_cons_self

/-- Agreement at the keys that stay is agreement at all keys if each key has the
path of one that stays, and only then. -/
theorem agreeAt_lasts_iff_all : (∀ d d', (∀ t, Lasts groups t → AgreeAt base d d' t) ↔
      ∀ t ∈ groups, AgreeAt base d d' t) ↔
    ∀ t ∈ groups, ∃ u, Lasts groups u ∧ path base u.field = path base t.field := by
  constructor
  · intro h t ht
    by_contra hlost
    -- documents that differ at the path of the lost key, and there only
    have hagree := (h (fun _ => none) fun p =>
      if p = path base t.field then some .null else none).1 ?_ t ht
    · simp [AgreeAt] at hagree
    · intro u hu
      have hpath : path base u.field ≠ path base t.field := fun heq => hlost ⟨u, hu, heq⟩
      simp [AgreeAt, hpath]
  · refine fun h d d' => ⟨fun hlasts t ht => ?_, fun hall t ht => hall t ht.mem⟩
    obtain ⟨u, hu, hpath⟩ := h t ht
    have hagree := hlasts u hu
    rwa [AgreeAt, hpath] at hagree

/-! ## The grouping of a find -/

theorem get?_identity_groupFields (hkey : KeepsKey base ps) :
    Keyed.get? identity (groupFields base groups ps) = some (.key (groupParts base groups)) :=
  (Keyed.get?_eq_some_iff Keyed.nodup_keys_ofPairs).2 (key_mem_groupFields hkey)

/-- An aggregated column with the name of the identity takes its place. -/
theorem exists_get?_identity_groupFields (groups : List Target) (hkey : ¬ KeepsKey base ps) :
    ∃ p ∈ ps, ∃ a, p.target.aggregation = some a ∧ columnName base p = identity ∧
      Keyed.get? identity (groupFields base groups ps) =
        some (.aggregate a (path base p.target.field)) := by
  have hclash : ∃ p ∈ ps, p.target.aggregation.isSome ∧ columnName base p = identity := by
    simpa [KeepsKey] using hkey
  obtain ⟨p, hp, haggregated, hname⟩ := hclash
  obtain ⟨a, ha⟩ := Option.isSome_iff_exists.1 haggregated
  have hmem : (columnName base p, GroupField.aggregate a (path base p.target.field)) ∈
      ps.filterMap (aggregateField base) := by
    refine List.mem_filterMap.2 ⟨p, hp, ?_⟩
    rw [aggregateField, columnName, ha, Option.map_some]
  -- the aggregations come behind the key, so one of them is the last with its name
  have hsome : Keyed.get? identity (ps.filterMap (aggregateField base)).reverse ≠ none := by
    rw [Ne, Keyed.get?_eq_none_iff, List.map_reverse, List.mem_reverse, ← hname]
    exact not_not_intro (List.mem_map_of_mem (f := Prod.fst) hmem)
  obtain ⟨value, hvalue⟩ := Option.ne_none_iff_exists'.1 hsome
  obtain ⟨q, hq, hfield⟩ :=
    List.mem_filterMap.1 (List.mem_reverse.1 (Keyed.mem_of_get?_eq_some hvalue))
  obtain ⟨b, hb, hpair⟩ := aggregateField_eq_some hfield
  obtain ⟨hqname, rfl⟩ := Prod.mk.inj hpair
  refine ⟨q, hq, b, hb, hqname.symm, ?_⟩
  rw [groupFields, Keyed.get?_ofPairs, List.reverse_cons, Keyed.get?_append, hvalue, Option.some_or]

/-- **What one group is.** The pipeline of a find with group keys has one
shaping stage, a grouping. Where no aggregated column is called like the identity,
two documents get the same one if they agree at the path of every key that has no
later key with its bare name. So they get the same one if they agree at all keys,
exactly if the path of each key is that of such a key. An aggregated column that
is called like the identity takes its place. -/
theorem find_groups {s : Find} {values : List Value} {cmd : Command}
    (h : render (.find s) values = .ok cmd) (hgroups : (Entry.partsAll s.entries).groups ≠ []) :
    ∃ (stages : List Json) (fields : List (String × Json)) (id : Json),
      cmd.toJson = .object [("operation", .string "aggregate"),
        ("collection", .string s.collection.name), ("pipeline", .array stages)] ∧
      stages.filterMap Shape.read = [.group fields] ∧ Keyed.get? identity fields = some id ∧
      (KeepsKey s.collection s.projection →
        (∀ d d', identityOf id d = identityOf id d' ↔
          ∀ t, Lasts (Entry.partsAll s.entries).groups t → AgreeAt s.collection d d' t) ∧
        ((∀ d d', identityOf id d = identityOf id d' ↔
            ∀ t ∈ (Entry.partsAll s.entries).groups, AgreeAt s.collection d d' t) ↔
          ∀ t ∈ (Entry.partsAll s.entries).groups,
            ∃ u, Lasts (Entry.partsAll s.entries).groups u ∧
              path s.collection u.field = path s.collection t.field)) ∧
      (¬ KeepsKey s.collection s.projection →
        ∃ p ∈ s.projection, ∃ a, p.target.aggregation = some a ∧
          columnName s.collection p = identity ∧
          id = (GroupField.aggregate a (path s.collection p.target.field)).toJson) := by
  obtain ⟨stages, htoJson, hshapes⟩ := find_toJson h
  have hgrouped : grouped (Entry.partsAll s.entries).groups s.projection = true := by
    simp [grouped, hgroups]
  rw [shaping_eq, if_pos hgrouped] at hshapes
  have hid : ∀ value, Keyed.get? identity
        (groupFields s.collection (Entry.partsAll s.entries).groups s.projection) = some value →
      Keyed.get? identity ((groupFields s.collection (Entry.partsAll s.entries).groups
        s.projection).map fun f => (f.1, f.2.toJson)) = some value.toJson := by
    intro value hvalue
    rw [Keyed.get?_map_snd, hvalue, Option.map_some]
  by_cases hkey : KeepsKey s.collection s.projection
  · refine ⟨stages, _, _, htoJson, hshapes, hid _ (get?_identity_groupFields hkey), fun _ => ⟨?_, ?_⟩,
      fun hclash => absurd hkey hclash⟩
    · exact fun d d' => identityOf_groupParts_eq_iff hgroups
    · simp only [identityOf_groupParts_eq_iff hgroups]
      exact agreeAt_lasts_iff_all
  · obtain ⟨p, hp, a, ha, hname, hvalue⟩ := exists_get?_identity_groupFields
      (Entry.partsAll s.entries).groups hkey
    exact ⟨stages, _, _, htoJson, hshapes, hid _ hvalue, fun hkeeps => absurd hkeeps hkey,
      fun _ => ⟨p, hp, a, ha, hname, rfl⟩⟩

end Identity

/-- A find that joins users with their teams and groups by two fields. -/
def byKeys (first second : FieldRef) : Find := ⟨⟨⟨"shop", "users"⟩,
  [.join ⟨⟨"shop", "teams"⟩, .inner,
      [⟨⟨"shop", "users"⟩, "team_id", some ⟨"shop", "teams"⟩, "id"⟩]⟩,
    .groupBy ⟨first, none⟩, .groupBy ⟨second, none⟩]⟩, []⟩

theorem lasts_byKeys {first second : FieldRef} {t : Target} (hname : first.field ≠ second.field)
    (ht : t ∈ (Entry.partsAll (byKeys first second).entries).groups) :
    Lasts (Entry.partsAll (byKeys first second).entries).groups t := by
  rcases List.mem_pair.1 ht with rfl | rfl
  · exact ⟨[], [⟨second, none⟩], rfl, by simpa using hname.symm⟩
  · exact ⟨[⟨first, none⟩], [], rfl, by simp⟩

theorem find_byNameAndCity_groups : ∃ (cmd : Command) (stages : List Json)
    (fields : List (String × Json)) (id : Json),
    render (.find (byKeys (.plain "name") (.parse "teams.city"))) [] = .ok cmd ∧
      cmd.toJson = .object [("operation", .string "aggregate"), ("collection", .string "users"),
        ("pipeline", .array stages)] ∧
      stages.filterMap Shape.read = [.group fields] ∧ Keyed.get? identity fields = some id ∧
      ∀ d d' : Doc, identityOf id d = identityOf id d' ↔
        d "name" = d' "name" ∧ d "teams.city" = d' "teams.city" := by
  have hc : render (.find (byKeys (.plain "name") (.parse "teams.city"))) [] = .ok _ := rfl
  obtain ⟨stages, fields, id, htoJson, hshapes, hid, hgroups, -⟩ :=
    find_groups hc (List.cons_ne_nil _ _)
  have hkey : KeepsKey ⟨"shop", "users"⟩ [] := fun p hp => absurd hp List.not_mem_nil
  have hagree := (hgroups hkey).2.2 fun t ht => ⟨t, lasts_byKeys (by decide) ht, rfl⟩
  refine ⟨_, stages, fields, id, hc, htoJson, hshapes, hid, fun d d' => (hagree d d').trans ?_⟩
  constructor
  · exact fun h => ⟨h _ (.head _), h _ (.tail _ (.head _))⟩
  · rintro ⟨hname, hcity⟩ t ht
    rcases List.mem_pair.1 ht with rfl | rfl
    · exact hname
    · exact hcity

/-- **A second key with the bare name of the first takes its place.** Users with
different names are one group if the names of their teams are the same. -/
theorem find_byNames_groups_together : ∃ (cmd : Command) (stages : List Json)
    (fields : List (String × Json)) (id : Json) (d d' : Doc),
    render (.find (byKeys (.plain "name") (.parse "teams.name"))) [] = .ok cmd ∧
      cmd.toJson = .object [("operation", .string "aggregate"), ("collection", .string "users"),
        ("pipeline", .array stages)] ∧
      stages.filterMap Shape.read = [.group fields] ∧ Keyed.get? identity fields = some id ∧
      id = .object [("name", .string "$teams.name")] ∧ identityOf id d = identityOf id d' ∧
      d "name" ≠ d' "name" := by
  refine ⟨_, _, _, _, pairDoc "name" "teams.name" 1 7, pairDoc "name" "teams.name" 2 7, rfl, rfl, rfl,
    rfl, rfl, rfl, ?_⟩
  simp [pairDoc]

end Document

end QueryLayer
