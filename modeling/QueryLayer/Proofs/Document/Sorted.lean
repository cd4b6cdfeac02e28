import QueryLayer.Proofs.Document.Shaped
import QueryLayer.Proofs.Walk.Parts

/-!
# The order of what a find returns

The sort keys of a find go to the store as a list with each path once, and they
sort what the grouping or the projection left. `find_sorts` says when the
documents nevertheless come in the order of the entries: a path that is sorted
by repeatedly keeps its direction, and the returned documents have what each key
asks for. Where they have nothing of it, their order is any (`find_sorts_nothing`).
-/

namespace QueryLayer

namespace Document

/-! ## Keys that repeat a path -/

section Steady

variable {store : Store} {ks : List (String × SortOrder)} {doc doc' : Doc}

/-- Sort keys of which none turns the direction of its path around: the first
and the last key for a path have one direction. -/
def Steady (ks : List (String × SortOrder)) : Prop :=
  ∀ k ∈ ks, Keyed.get? k.1 ks.reverse = Keyed.get? k.1 ks

/-- Documents that tie in one direction tie in both. -/
theorem Store.before_of_tie {o : SortOrder} {u v : Option Value} (huv : store.before o u v)
    (hvu : store.before o v u) (o' : SortOrder) : store.before o' u v := by
  cases o <;> cases o'
  · exact huv
  · exact hvu
  · exact hvu
  · exact huv

/-- By the value at a path, in the direction that belongs to the path. -/
def Store.byFirst (store : Store) (dir : String → SortOrder) (path : String) (doc doc' : Doc) : Prop :=
  store.before (dir path) (doc path) (doc' path)

/-- Only the first key for a path decides anything. -/
theorem lexicographic_iff_byFirst {dir : String → SortOrder}
    (hdir : ∀ path o, Keyed.get? path ks = some o → dir path = o) :
    Lexicographic store.byPath ks doc doc' ↔
      Lexicographic (store.byFirst dir) ((Keyed.ofPairs ks).map Prod.fst) doc doc' := by
  induction ks using List.reverseRecOn generalizing doc doc' with
  | nil => exact Iff.rfl
  | append_singleton ks k ih =>
    have hbefore : ∀ path o, Keyed.get? path ks = some o → dir path = o := fun path o h =>
      hdir path o (by rw [Keyed.get?_append, h, Option.some_or])
    rw [Keyed.ofPairs_concat, Keyed.map_fst_put, lexicographic_append, ih hbefore, ih hbefore]
    split
    · next hknown =>
      -- the path stands already, and what ties before ties at the path
      refine and_iff_left_of_imp fun hab hba => ⟨?_, fun _ => trivial⟩
      have hle : store.byFirst dir k.1 doc doc' := le_of_lexicographic hknown hab hba
      have hge : store.byFirst dir k.1 doc' doc := le_of_lexicographic hknown hba hab
      exact Store.before_of_tie hle hge k.2
    · next hnew =>
      -- the key is the first one for its path, so the direction is its own
      have hfirst : dir k.1 = k.2 := hdir k.1 k.2 (by
        rw [Keyed.get?_append, Keyed.get?_eq_none_iff.2 (mt Keyed.mem_keys_ofPairs.2 hnew)]
        simp [Keyed.get?])
      rw [lexicographic_append]
      simp only [Lexicographic, Store.byFirst, Store.byPath, hfirst]

/-- **Putting each path once is of no consequence** where no key turns the
direction of its path around. -/
theorem lexicographic_ofPairs (h : Steady ks) : Lexicographic store.byPath (Keyed.ofPairs ks) doc doc' ↔
    Lexicographic store.byPath ks doc doc' := by
  have hdir : ∀ path o, Keyed.get? path ks = some o → (Keyed.get? path ks).getD .asc = o := by
    intro path o ho
    rw [ho, Option.getD_some]
  rw [lexicographic_iff_byFirst hdir]
  refine lexicographic_map fun k hk => ?_
  have hlast : Keyed.get? k.1 ks.reverse = some k.2 := Keyed.mem_ofPairs.1 hk
  obtain ⟨k', hk', hpath⟩ := List.mem_map.1
    (Keyed.mem_keys_ofPairs.1 (List.mem_map_of_mem (f := Prod.fst) hk))
  have hfirst : Keyed.get? k.1 ks = some k.2 := by rw [← hpath, ← h k' hk', hpath, hlast]
  simp only [Store.byFirst, Store.byPath, hdir k.1 k.2 hfirst, and_self]

end Steady

/-! ## The pipeline before its window -/

/-- The stage belongs to a window of rows. -/
def Stage.isWindow : Stage → Bool
  | .skip _ | .limit _ => true
  | _ => false

/-- The stages without those of a window. -/
def unwindowed (stages : List Stage) : List Stage := stages.filter fun stage => !stage.isWindow

section Pipeline

variable {base : CollectionRef} {p : Plan} {ps : List Projection}

/-- What is left of a pipeline without its window. -/
theorem unwindowed_pipeline (hjoins : p.joins = []) : unwindowed (Stage.pipeline base p ps) =
    Stage.filtering base p.predicates ++ Stage.shaping base p.groups ps ++
      Stage.sorting base p.sorts := by
  have hfiltering : unwindowed (Stage.filtering base p.predicates) =
      Stage.filtering base p.predicates := by
    rw [Stage.filtering]
    split <;> rfl
  have hshaping : unwindowed (Stage.shaping base p.groups ps) = Stage.shaping base p.groups ps := by
    rw [shaping_eq]
    split_ifs <;> rfl
  have hsorting : unwindowed (Stage.sorting base p.sorts) = Stage.sorting base p.sorts := by
    rw [Stage.sorting]
    split <;> rfl
  have hwindow : unwindowed (Stage.ofWindow p.window) = [] := by
    cases p.window with
    | none => rfl
    | some w =>
      rw [Stage.ofWindow]
      split <;> rfl
  rw [unwindowed] at hfiltering hshaping hsorting hwindow
  rw [unwindowed, Stage.pipeline, hjoins, List.flatMap_nil, List.nil_append, List.filter_append,
    List.filter_append, List.filter_append, hfiltering, hshaping, hsorting, hwindow, List.append_nil]

/-- A run up to the window filters, shapes and sorts. -/
theorem runs_unwindowed (hjoins : p.joins = []) {store : Store} {docs out : List Doc} :
    Runs store (unwindowed (Stage.pipeline base p ps)) docs out ↔
      ∃ shaped, Runs store (Stage.shaping base p.groups ps)
          (docs.filter (store.passes (.conjunction (Filter.ofPredicates base p.predicates)))) shaped ∧
        Runs store (Stage.sorting base p.sorts) shaped out := by
  rw [unwindowed_pipeline hjoins, runs_append]
  refine exists_congr fun shaped => and_congr_left fun _ => ?_
  rw [runs_append]
  exact ⟨fun ⟨_, hfilter, hshape⟩ => runs_filtering.1 hfilter ▸ hshape,
    fun hshape => ⟨_, runs_filtering.2 rfl, hshape⟩⟩

end Pipeline

/-! ## The order of a find -/

section Find

/-- The sort keys as they are called, with their paths. -/
def sortPairs (base : CollectionRef) (ks : List SortKey) : List (String × SortOrder) :=
  ks.map fun k => (path base k.target.field, k.order)

/-- By a sort key, one group of documents does not come after another. -/
def Store.byKey (store : Store) (base : CollectionRef) (ps : List Projection) (k : SortKey)
    (g g' : List Doc) : Prop :=
  store.before k.order (sortValue store base ps k.target.field g)
    (sortValue store base ps k.target.field g')

/-- The sort keys of the find can be read off the documents it returns. -/
structure Sortable (s : Find) : Prop where
  steady : Steady (sortPairs s.collection (Entry.partsAll s.entries).sorts)
  carried : ∀ k ∈ (Entry.partsAll s.entries).sorts,
    Carried s.collection (Entry.partsAll s.entries).groups s.projection k.target.field
  keeps_key : KeepsKey s.collection s.projection

/-- What is in order is so by whatever it was made of. -/
theorem pairwise_of_forall₂ {α β : Type} {R : α → β → Prop} {S : β → β → Prop} {T : α → α → Prop}
    {xs : List α} {ys : List β} (h : List.Forall₂ R xs ys) (hys : ys.Pairwise S)
    (himp : ∀ {a b a' b'}, R a b → R a' b' → S b b' → T a a') : xs.Pairwise T := by
  rw [List.pairwise_iff_getElem] at hys ⊢
  intro i j hi hj hij
  have hlength := h.length_eq
  exact himp (h.get hi (by omega)) (h.get hj (by omega)) (hys i j (by omega) (by omega) hij)

/-- **The order of a find.** A find without joins, whose sort keys can be read
off the documents it returns, returns before its window documents that come from
groups of those passing the filter; they have at the path of each key the value
of their group, and the groups are in the order of the entries. -/
theorem find_sorts {s : Find} {values : List Value} {c : Command}
    (hjoins : (Entry.partsAll s.entries).joins = []) (hs : Sortable s)
    (hc : render (.find s) values = .ok c) :
    ∃ p, Plan.ofEntries rules s.entries values = .ok p ∧
      c = .aggregate s.collection.name (Stage.pipeline s.collection p s.projection) ∧
      ∀ (store : Store) (docs out : List Doc),
        Runs store (unwindowed (Stage.pipeline s.collection p s.projection)) docs out →
        ∃ origins,
          Origins s.collection (Entry.partsAll s.entries).groups s.projection
            (docs.filter
              (store.passes (.conjunction (Filter.ofPredicates s.collection p.predicates)))) origins ∧
          List.Forall₂ (Shapes store s.collection (Entry.partsAll s.entries).groups s.projection)
            origins out ∧
          (∀ k ∈ (Entry.partsAll s.entries).sorts, List.Forall₂ (fun g doc =>
            doc (path s.collection k.target.field) =
              sortValue store s.collection s.projection k.target.field g) origins out) ∧
          origins.Pairwise (Lexicographic (store.byKey s.collection s.projection)
            (Entry.partsAll s.entries).sorts) := by
  obtain ⟨p, hp, hstages⟩ := Run.outcome_bind_eq_ok.1 hc
  have hparts := Plan.hasParts_of_ofEntries hp
  refine ⟨p, hp, (Except.ok.inj hstages).symm, fun store docs out hrun => ?_⟩
  obtain ⟨shaped, hshape, hsort⟩ := (runs_unwindowed (hparts.joins.trans hjoins)).1 hrun
  rw [hparts.groups] at hshape
  obtain ⟨hperm, hsorted⟩ := runs_sorting hsort
  obtain ⟨origins, horigins, hshapes⟩ := exists_origins_of_runs_shaping hs.keeps_key hshape
  -- the groups are put in the order of the documents that come from them
  obtain ⟨origins', hperm', hshapes'⟩ :=
    (congrFun₂ List.forall₂_comp_perm_eq_perm_comp_forall₂ origins out).mp
      ⟨shaped, hshapes, hperm.symm⟩
  have hvalue : ∀ k ∈ (Entry.partsAll s.entries).sorts, ∀ {g doc},
      Shapes store s.collection (Entry.partsAll s.entries).groups s.projection g doc →
      doc (path s.collection k.target.field) =
        sortValue store s.collection s.projection k.target.field g :=
    fun k hk _ _ h => h.sortValue hs.keeps_key (hs.carried k hk)
  refine ⟨origins', horigins.of_perm hperm', hshapes',
    fun k hk => hshapes'.imp fun _ _ => hvalue k hk, ?_⟩
  refine pairwise_of_forall₂ hshapes' hsorted fun {g doc g' doc'} hg hg' hle => ?_
  rw [hparts.sorts] at hle
  refine (lexicographic_map fun k hk => ?_).2 ((lexicographic_ofPairs hs.steady).1 hle)
  simp only [Store.byKey, Store.byPath, hvalue k hk hg, hvalue k hk hg', and_self]

/-- **Lost keys sort nothing.** Where the returned documents have nothing of
what the sort keys ask for, the store may return them in any order. -/
theorem find_sorts_nothing {s : Find} {values : List Value} {p : Plan}
    (hjoins : (Entry.partsAll s.entries).joins = []) (hkey : KeepsKey s.collection s.projection)
    (hsorts : (Entry.partsAll s.entries).sorts ≠ [])
    (hlost : ∀ k ∈ (Entry.partsAll s.entries).sorts,
      Lost s.collection (Entry.partsAll s.entries).groups s.projection k.target.field)
    (hp : Plan.ofEntries rules s.entries values = .ok p) {store : Store} {docs out out' : List Doc}
    (hrun : Runs store (unwindowed (Stage.pipeline s.collection p s.projection)) docs out)
    (hperm : out'.Perm out) :
    Runs store (unwindowed (Stage.pipeline s.collection p s.projection)) docs out' := by
  have hparts := Plan.hasParts_of_ofEntries hp
  have hpjoins : p.joins = [] := hparts.joins.trans hjoins
  obtain ⟨shaped, hshape, hsort⟩ := (runs_unwindowed hpjoins).1 hrun
  refine (runs_unwindowed hpjoins).2 ⟨shaped, hshape, ?_⟩
  rw [hparts.groups] at hshape
  obtain ⟨origins, -, hshapes⟩ := exists_origins_of_runs_shaping hkey hshape
  rw [← hparts.sorts] at hsorts hlost
  have hshaped := hperm.trans (runs_sorting hsort).1
  -- every document ties with every other at every key
  have hnone : ∀ doc ∈ out', ∀ k ∈ Stage.sortKeys s.collection p.sorts, doc k.1 = none := by
    intro doc hdoc k hk
    obtain ⟨i, hi, rfl⟩ := List.getElem_of_mem (hshaped.mem_iff.1 hdoc)
    obtain ⟨k', hk', rfl⟩ := List.mem_map.1 (Keyed.mem_of_mem_ofPairs hk)
    exact (hshapes.get (hshapes.length_eq ▸ hi) hi).eq_none (hlost k' hk')
  rw [Stage.sorting, if_neg (by simpa using hsorts), runs_singleton]
  refine ⟨hshaped, List.pairwise_of_forall_mem_list fun doc hdoc doc' hdoc' => ?_⟩
  refine lexicographic_of_forall fun k hk => ?_
  rw [Store.byPath, hnone doc hdoc k hk, hnone doc' hdoc' k hk]
  exact (store.before_total k.2 none none).elim id id

/-- A document that holds two numbers. -/
def pairDoc (name name' : String) (a b : Int64) : Doc := fun path =>
  if path = name then some (.int a) else if path = name' then some (.int b) else none

theorem pairDoc_append (name name' : String) (a b : Int64) (path rest : String) :
    pairDoc name name' a b (path ++ rest) =
      if path.toList ++ rest.toList = name.toList then some (.int a)
      else if path.toList ++ rest.toList = name'.toList then some (.int b) else none := by
  simp only [pairDoc, ← String.toList_inj, String.toList_append]

/-- A find that calls the rank `n` and sorts by it, and then by the age. -/
def byRank : Find := ⟨⟨⟨"shop", "users"⟩,
  [.orderBy ⟨⟨.plain "n", none⟩, .asc⟩, .orderBy ⟨⟨.plain "age", none⟩, .desc⟩,
    .orderBy ⟨⟨.plain "n", none⟩, .asc⟩, .limit ⟨5, 0⟩]⟩,
  [⟨⟨.plain "rank", none⟩, some "n"⟩, ⟨⟨.plain "age", none⟩, none⟩]⟩

/-- The pipeline of that find. -/
def byRankStages : List Stage :=
  [.project [("n", .copy "rank"), ("age", .keep)], .sort [("n", .asc), ("age", .desc)], .limit 5]

theorem sortable_byRank : Sortable byRank where
  steady := by
    unfold Steady
    decide
  carried := by
    have hn : Carried ⟨"shop", "users"⟩ [] byRank.projection (.plain "n") :=
      ⟨by unfold Alone; decide, fun h => absurd h (by decide)⟩
    have hage : Carried ⟨"shop", "users"⟩ [] byRank.projection (.plain "age") :=
      ⟨by decide, .inr (.inl ⟨_, .tail _ (.head _), rfl, by unfold Alone; decide, "", below_empty, rfl⟩)⟩
    intro k hk
    have hmem : k ∈ [⟨⟨.plain "n", none⟩, .asc⟩, ⟨⟨.plain "age", none⟩, .desc⟩,
      ⟨⟨.plain "n", none⟩, SortOrder.asc⟩] := hk
    simp only [List.mem_cons, List.not_mem_nil, or_false] at hmem
    rcases hmem with rfl | rfl | rfl
    · exact hn
    · exact hage
    · exact hn
  keeps_key := by
    unfold KeepsKey
    decide

theorem projects_byRank (a b : Int64) : Projects [("n", .copy "rank"), ("age", .keep)]
    (pairDoc "rank" "age" a b) (pairDoc "n" "age" a b) where
  field f hf rest _ := by
    rcases List.mem_pair.1 hf with rfl | rfl
    · simp [pairDoc_append, ProjectField.source]
    · simp [pairDoc_append, ProjectField.source]
  kept_identity _ rest _ := by simp [pairDoc_append, identity]
  nothing_else path _ h := by
    have hn : path ≠ "n" := fun hpath =>
      h ("n", .copy "rank") (by simp) ⟨"", below_empty, .inl (by simp [hpath])⟩
    have hage : path ≠ "age" := fun hpath =>
      h ("age", .keep) (by simp) ⟨"", below_empty, .inl (by simp [hpath])⟩
    simp [pairDoc, hn, hage]

theorem find_byRank_sorts : ∃ origins,
    render (.find byRank) [] = .ok (.aggregate "users" byRankStages) ∧
      Runs integerStore (unwindowed byRankStages)
        [pairDoc "rank" "age" 2 20, pairDoc "rank" "age" 1 30]
        [pairDoc "n" "age" 1 30, pairDoc "n" "age" 2 20] ∧
      Origins byRank.collection [] byRank.projection
        [pairDoc "rank" "age" 2 20, pairDoc "rank" "age" 1 30] origins ∧
      List.Forall₂ (Shapes integerStore byRank.collection [] byRank.projection) origins
        [pairDoc "n" "age" 1 30, pairDoc "n" "age" 2 20] ∧
      origins.Pairwise (Lexicographic (integerStore.byKey byRank.collection byRank.projection)
        (Entry.partsAll byRank.entries).sorts) := by
  have hc : render (.find byRank) [] = .ok (.aggregate "users" byRankStages) := rfl
  obtain ⟨p, hp, hstages, hsorts⟩ := find_sorts rfl sortable_byRank hc
  obtain rfl := Except.ok.inj hp
  have hsorted : Lexicographic integerStore.byPath [("n", .asc), ("age", .desc)]
      (pairDoc "n" "age" 1 30) (pairDoc "n" "age" 2 20) := by
    simp [Lexicographic, Store.byPath, Store.before, integerStore, integerOf, pairDoc]
  have hrun : Runs integerStore (unwindowed byRankStages)
      [pairDoc "rank" "age" 2 20, pairDoc "rank" "age" 1 30]
      [pairDoc "n" "age" 1 30, pairDoc "n" "age" 2 20] :=
    ⟨[pairDoc "n" "age" 2 20, pairDoc "n" "age" 1 30],
      .cons (projects_byRank 2 20) (.cons (projects_byRank 1 30) .nil), _,
      ⟨.swap _ _ _, List.pairwise_pair.2 hsorted⟩, rfl⟩
  obtain ⟨origins, horigins, hshapes, -, hpairwise⟩ := hsorts integerStore _ _ hrun
  exact ⟨origins, hc, hrun, horigins, hshapes, hpairwise⟩

/-- A find that sorts by `a`, by `b` and then by `a` the other way around. -/
def turned : Find := ⟨⟨⟨"shop", "users"⟩,
  [.orderBy ⟨⟨.plain "a", none⟩, .asc⟩, .orderBy ⟨⟨.plain "b", none⟩, .asc⟩,
    .orderBy ⟨⟨.plain "a", none⟩, .desc⟩]⟩, []⟩

/-- **A later key can turn an earlier one around.** The document with the higher
`a` comes first, though the first key says that it comes last. -/
theorem find_turned_not_sorted : ∃ stages out,
    render (.find turned) [] = .ok (.aggregate "users" stages) ∧
      stages = [.sort [("a", .desc), ("b", .asc)]] ∧
      Runs integerStore (unwindowed stages) [pairDoc "a" "b" 1 0, pairDoc "a" "b" 2 0] out ∧
      ¬ out.Pairwise (Lexicographic integerStore.byPath
        (sortPairs turned.collection (Entry.partsAll turned.entries).sorts)) := by
  have hc : render (.find turned) [] =
      .ok (.aggregate "users" [.sort [("a", .desc), ("b", .asc)]]) := rfl
  have hsorted : Lexicographic integerStore.byPath [("a", .desc), ("b", .asc)]
      (pairDoc "a" "b" 2 0) (pairDoc "a" "b" 1 0) := by
    simp [Lexicographic, Store.byPath, Store.before, integerStore, integerOf, pairDoc]
  refine ⟨_, [pairDoc "a" "b" 2 0, pairDoc "a" "b" 1 0], hc, rfl,
    ⟨_, ⟨.swap _ _ _, List.pairwise_pair.2 hsorted⟩, rfl⟩, fun hpairwise => ?_⟩
  have hle : (2 : ℤ) ≤ 1 := (List.pairwise_pair.1 hpairwise).1
  exact absurd hle (by decide)

end Find

end Document

end QueryLayer
