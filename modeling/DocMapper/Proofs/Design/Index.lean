import DocMapper.Design.Index
import DocMapper.Proofs.Key.Identity
import Mathlib.Data.List.Nodup

/-!
# Generated indexes

Which of the indexes that models need are created. An index is known by a name that is joined of the
table, the attributes and the direction, and of the indexes that would have one name only the first
is created.
-/

namespace DocMapper

theorem Direction.name_injective {d e : Direction} (hname : d.name = e.name) : d = e := by
  cases d <;> cases e <;> first | rfl | exact absurd hname (by decide)

/-- Attributes of a table that are to be indexed together: those of a declared index, a default
query attribute, or the key of a view. No directions stand for both. -/
structure IndexedAttributes where
  table : String
  attributes : List String
  directions : List Direction
deriving DecidableEq

/-- The directions in which the attributes are to be indexed. -/
def IndexedAttributes.sortDirections (i : IndexedAttributes) : List Direction :=
  if i.directions.isEmpty then [.asc, .desc] else i.directions

namespace Schema

/-- What a model declares indexes for. -/
def declaredIndexes (s : Schema) : List IndexedAttributes :=
  s.indexes.map (fun spec => ⟨s.table, spec.attr :: spec.compositions, spec.directions⟩) ++
    s.defaultQueryAttributes.map fun attr => ⟨s.table, [attr], []⟩

/-- The keys of the views that a model declares; an empty one has no index. -/
def viewKeys (s : Schema) : List IndexedAttributes :=
  s.views.flatMap fun spec =>
    match spec.keyFields with
    | [] => []
    | key => [⟨s.table, key, spec.directions⟩]

/-- All that models want indexed. -/
def indexed (schemas : List Schema) : List IndexedAttributes :=
  schemas.flatMap declaredIndexes ++ schemas.flatMap viewKeys

theorem attributes_ne_nil {schemas : List Schema} {i : IndexedAttributes}
    (hmem : i ∈ indexed schemas) : i.attributes ≠ [] := by
  obtain hdeclared | hview := List.mem_append.mp hmem
  · obtain ⟨s, _, hdeclared⟩ := List.mem_flatMap.mp hdeclared
    obtain hindex | hquery := List.mem_append.mp hdeclared
    · obtain ⟨spec, _, rfl⟩ := List.mem_map.mp hindex
      exact List.cons_ne_nil _ _
    · obtain ⟨attr, _, rfl⟩ := List.mem_map.mp hquery
      exact List.cons_ne_nil _ _
  · obtain ⟨s, _, hview⟩ := List.mem_flatMap.mp hview
    obtain ⟨spec, _, hkey⟩ := List.mem_flatMap.mp hview
    cases hfields : spec.keyFields with
    | nil =>
      rw [hfields] at hkey
      cases hkey
    | cons attr rest =>
      rw [hfields] at hkey
      obtain rfl := List.mem_singleton.mp hkey
      exact List.cons_ne_nil _ _

end Schema

open Schema

namespace IndexRequest

variable {requests extra : List IndexRequest} {schemas : List Schema} {r : IndexRequest}
  {i : IndexedAttributes} {name : String}

/-! ## One index for each name -/

/-- Requests of one name are not added twice. -/
theorem nodup_addNew (hnodup : (requests.map IndexRequest.name).Nodup) :
    ((addNew requests extra).map IndexRequest.name).Nodup := by
  induction extra generalizing requests with
  | nil => exact hnodup
  | cons r rest ih =>
    rw [addNew, List.foldl_cons, ← addNew]
    by_cases hthere : (requests.any fun q => q.name = r.name) = true
    · rw [if_pos hthere]
      exact ih hnodup
    · rw [if_neg hthere]
      refine ih ?_
      rw [List.map_append, List.map_singleton]
      refine hnodup.append (List.nodup_singleton _) (List.disjoint_singleton.mpr fun hmem => ?_)
      obtain ⟨q, hq, hname⟩ := List.mem_map.mp hmem
      exact hthere (List.any_eq_true.mpr ⟨q, hq, decide_eq_true hname⟩)

/-- Of the requests with one name the first is kept. -/
theorem find?_addNew (requests extra : List IndexRequest) (name : String) :
    (addNew requests extra).find? (fun r => r.name = name) =
      (requests ++ extra).find? fun r => r.name = name := by
  induction extra generalizing requests with
  | nil => rw [List.append_nil]; rfl
  | cons r rest ih =>
    rw [addNew, List.foldl_cons, ← addNew]
    by_cases hthere : (requests.any fun q => q.name = r.name) = true
    · rw [if_pos hthere, ih, List.find?_append, List.find?_append]
      by_cases hname : r.name = name
      · subst hname
        have hsome : (requests.find? fun q => q.name = r.name).isSome = true := by
          rwa [List.find?_isSome, ← List.any_eq_true]
        obtain ⟨q, hq⟩ := Option.isSome_iff_exists.mp hsome
        rw [hq, Option.some_or, Option.some_or]
      · rw [List.find?_cons_of_neg (by rwa [decide_eq_true_eq])]
    · rw [if_neg hthere, ih, List.append_assoc, List.singleton_append]

theorem find?_name_eq_some_iff (hnodup : (requests.map IndexRequest.name).Nodup) :
    (requests.find? fun q => q.name = r.name) = some r ↔ r ∈ requests := by
  refine ⟨List.mem_of_find?_eq_some, fun hmem => ?_⟩
  induction requests with
  | nil => cases hmem
  | cons head rest ih =>
    obtain ⟨hfirst, hrest⟩ := List.nodup_cons.mp hnodup
    obtain rfl | hlater := List.mem_cons.mp hmem
    · exact List.find?_cons_of_pos (decide_eq_true rfl)
    · have hne : head.name ≠ r.name := fun hname =>
        hfirst (hname ▸ List.mem_map_of_mem hlater)
      rw [List.find?_cons_of_neg (by rwa [decide_eq_true_eq])]
      exact ih hrest hlater

/-! ## What is created -/

/-- The requests for attributes: one without directions, and one for each direction. -/
def ofIndexed (i : IndexedAttributes) : List IndexRequest :=
  onAttributes i.table i.attributes i.directions

/-- All requests that models need, whether or not their names are taken. -/
def wanted (schemas : List Schema) : List IndexRequest :=
  onTable :: (indexed schemas).flatMap ofIndexed

theorem ofSchema_eq (s : Schema) : ofSchema s = s.declaredIndexes.flatMap ofIndexed := by
  rw [ofSchema, declaredIndexes, List.flatMap_append, List.flatMap_map, List.flatMap_map]
  rfl

theorem flatMap_ofView_eq (s : Schema) :
    s.views.flatMap (ofView s.table) = s.viewKeys.flatMap ofIndexed := by
  rw [viewKeys, List.flatMap_assoc]
  refine List.flatMap_congr fun spec _ => ?_
  rw [ofView]
  cases spec.keyFields with
  | nil => rfl
  | cons attr rest => exact (List.flatMap_singleton ..).symm

/-- Generated requests have names of their own. -/
theorem nodup_names_generate (schemas : List Schema) :
    ((generate schemas).map IndexRequest.name).Nodup :=
  nodup_addNew (List.nodup_singleton _)

/-- Of the requests that models need the first with a name is made. -/
theorem find?_generate (schemas : List Schema) (name : String) :
    (generate schemas).find? (fun r => r.name = name) =
      (wanted schemas).find? fun r => r.name = name := by
  have hschemas : schemas.flatMap ofSchema =
      (schemas.flatMap declaredIndexes).flatMap ofIndexed := by
    rw [List.flatMap_assoc]
    exact List.flatMap_congr fun s _ => ofSchema_eq s
  have hviews : (schemas.flatMap fun s => s.views.flatMap (ofView s.table)) =
      (schemas.flatMap viewKeys).flatMap ofIndexed := by
    rw [List.flatMap_assoc]
    exact List.flatMap_congr fun s _ => flatMap_ofView_eq s
  rw [generate, find?_addNew, ofViews, List.find?_append, List.find?_append, find?_addNew,
    List.nil_append, ← List.find?_append, ← List.find?_append, hschemas, hviews,
    ← List.flatMap_append]
  rfl

/-- The first wanted request of a name is generated. -/
theorem mem_generate_iff : r ∈ generate schemas ↔
    ((wanted schemas).find? fun q => q.name = r.name) = some r := by
  rw [← find?_generate, find?_name_eq_some_iff (nodup_names_generate schemas)]

theorem mem_wanted_of_mem_generate (hmem : r ∈ generate schemas) : r ∈ wanted schemas :=
  List.mem_of_find?_eq_some (mem_generate_iff.mp hmem)

theorem mem_ofIndexed_iff : r ∈ ofIndexed i ↔ r = plain i.table i.attributes ∨
    ∃ direction ∈ i.sortDirections, r = directed i.table i.attributes direction := by
  rw [ofIndexed, onAttributes, List.mem_cons, List.mem_map]
  simp only [eq_comm (a := r), IndexedAttributes.sortDirections]

/-- Wanted are the index on the tables and those of the indexed attributes. -/
theorem mem_wanted_iff : r ∈ wanted schemas ↔
    r = onTable ∨ ∃ i ∈ indexed schemas, r ∈ ofIndexed i := by
  rw [wanted, List.mem_cons, List.mem_flatMap]

/-- No index that models need is without fields. -/
theorem fields_ne_nil_of_mem_generate (hmem : r ∈ generate schemas) : r.index.fields ≠ [] := by
  obtain rfl | ⟨i, _, hr⟩ := mem_wanted_iff.mp (mem_wanted_of_mem_generate hmem)
  · exact List.cons_ne_nil _ _
  · obtain rfl | ⟨direction, _, rfl⟩ := mem_ofIndexed_iff.mp hr <;> exact List.cons_ne_nil _ _

/-- No name that models need is missing. -/
theorem exists_mem_generate (hmem : r ∈ wanted schemas) :
    ∃ q ∈ generate schemas, q.name = r.name := by
  have hsome : ((generate schemas).find? fun q => q.name = r.name).isSome = true := by
    rw [find?_generate]
    exact List.find?_isSome.mpr ⟨r, hmem, decide_eq_true rfl⟩
  obtain ⟨q, hq⟩ := Option.isSome_iff_exists.mp hsome
  exact ⟨q, List.mem_of_find?_eq_some hq, by simpa using List.find?_some hq⟩

/-! ## What is provided -/

/-- There is an index on the attributes for the documents of their table, and one for each
direction, each under its own name. -/
structure Provides (requests : List IndexRequest) (i : IndexedAttributes) : Prop where
  plain : ∃ r ∈ requests, r.name = nameOf i.table i.attributes none ∧ r.index = {
    fields := (tableField :: i.attributes).map .str
    partialFilter := some (.equals tableField (.str i.table)) }
  directed : ∀ direction ∈ i.sortDirections, ∃ r ∈ requests,
    r.name = nameOf i.table i.attributes (some direction) ∧ r.index = {
      fields := (tableField :: i.attributes).map fun name => .obj [(name, direction.encode)] }

/-- No two different indexes would have one name. -/
def NamesApart (schemas : List Schema) : Prop :=
  ∀ r ∈ wanted schemas, ∀ q ∈ wanted schemas, r.name = q.name → r = q

/-- Names are apart if and only if every wanted request is generated. -/
theorem namesApart_iff : NamesApart schemas ↔ ∀ r ∈ wanted schemas, r ∈ generate schemas := by
  constructor
  · intro hapart r hr
    obtain ⟨q, hq, hname⟩ := exists_mem_generate hr
    rwa [← hapart q (mem_wanted_of_mem_generate hq) r hr hname]
  · intro hmade r hr q hq hname
    have hfirst := mem_generate_iff.mp (hmade r hr)
    rw [hname, mem_generate_iff.mp (hmade q hq)] at hfirst
    exact (Option.some.inj hfirst).symm

/-- A request is told by its name and what it covers. -/
theorem eq_named_of_mem_generate (hmem : r ∈ generate schemas) : r = named r.name r.index := by
  obtain rfl | ⟨i, _, hr⟩ := mem_wanted_iff.mp (mem_wanted_of_mem_generate hmem)
  · rfl
  · obtain rfl | ⟨direction, _, rfl⟩ := mem_ofIndexed_iff.mp hr <;> rfl

theorem provides_iff : Provides (generate schemas) i ↔
    ∀ r ∈ ofIndexed i, r ∈ generate schemas := by
  have hnamed : ∀ q ∈ generate schemas, ∀ name index, q.name = name → q.index = index →
      named name index ∈ generate schemas := by
    rintro q hq name index rfl rfl
    rwa [← eq_named_of_mem_generate hq]
  constructor
  · intro hprovides r hr
    obtain rfl | ⟨direction, hdirection, rfl⟩ := mem_ofIndexed_iff.mp hr
    · obtain ⟨q, hq, hname, hindex⟩ := hprovides.plain
      exact hnamed q hq _ _ hname hindex
    · obtain ⟨q, hq, hname, hindex⟩ := hprovides.directed direction hdirection
      exact hnamed q hq _ _ hname hindex
  · intro hmade
    refine ⟨⟨_, hmade _ (mem_ofIndexed_iff.mpr (Or.inl rfl)), rfl, rfl⟩, fun direction hdirection =>
      ⟨_, hmade _ (mem_ofIndexed_iff.mpr (Or.inr ⟨direction, hdirection, rfl⟩)), rfl, rfl⟩⟩

/-- All that models want indexed is, exactly where no two different indexes would have one name. -/
theorem forall_provides_iff :
    (∀ i ∈ indexed schemas, Provides (generate schemas) i) ↔ NamesApart schemas := by
  have htable : onTable ∈ generate schemas := mem_generate_iff.mpr rfl
  rw [namesApart_iff]
  constructor
  · intro hprovides r hr
    obtain rfl | ⟨i, hi, hr⟩ := mem_wanted_iff.mp hr
    · exact htable
    · exact provides_iff.mp (hprovides i hi) r hr
  · intro hmade i hi
    exact provides_iff.mpr fun r hr => hmade r (mem_wanted_iff.mpr (Or.inr ⟨i, hi, hr⟩))

/-! ## Names that stay apart -/

/-- The name cannot be mistaken for two, nor run together with the separator behind it. -/
structure Unmistakable (name : String) : Prop where
  contains_separator : Text.contains separator name = false
  getLast?_ne : name.toList.getLast? ≠ some '_'

instance : DecidablePred Unmistakable := fun name =>
  decidable_of_iff (Text.contains separator name = false ∧ name.toList.getLast? ≠ some '_')
    ⟨fun ⟨hcontains, hlast⟩ => ⟨hcontains, hlast⟩, fun ⟨hcontains, hlast⟩ => ⟨hcontains, hlast⟩⟩

theorem Unmistakable.ne_append_underscore {name : String} (hname : Unmistakable name)
    (front : String) : name ≠ front ++ "_" := by
  rintro rfl
  refine hname.getLast?_ne ?_
  rw [String.toList_append]
  exact List.getLast?_concat

theorem eq_of_joined_eq {s t j k : String} (hs : Unmistakable s) (ht : Unmistakable t)
    (hsame : s ++ separator ++ j = t ++ separator ++ k) : s = t ∧ j = k := by
  obtain hlength | hlength := Nat.le_total s.length t.length
  · obtain hboth | ⟨hadd, _⟩ := Identity.joined_eq ht.contains_separator hlength hsame
    · exact hboth
    · exact absurd hadd.symm (ht.ne_append_underscore s)
  · obtain ⟨hname, hrest⟩ | ⟨hadd, _⟩ :=
      Identity.joined_eq hs.contains_separator hlength hsame.symm
    · exact ⟨hname.symm, hrest.symm⟩
    · exact absurd hadd.symm (hs.ne_append_underscore t)

/-- An unmistakable name is no joined one. -/
theorem Unmistakable.ne_joined {s t j : String} (hs : Unmistakable s) :
    s ≠ t ++ separator ++ j := by
  rintro rfl
  have hnone := hs.contains_separator
  rw [Identity.contains_separator_append] at hnone
  cases hnone

/-- Unmistakable parts can be told from the name that is joined of them. -/
theorem intercalate_separator_injective {parts others : List String}
    (hparts : ∀ part ∈ parts, Unmistakable part) (hothers : ∀ part ∈ others, Unmistakable part)
    (hne : parts ≠ []) (hne' : others ≠ [])
    (hsame : separator.intercalate parts = separator.intercalate others) : parts = others := by
  induction parts generalizing others with
  | nil => exact absurd rfl hne
  | cons part rest ih =>
    obtain ⟨hpart, hrest⟩ := List.forall_mem_cons.mp hparts
    cases others with
    | nil => exact absurd rfl hne'
    | cons other later =>
      obtain ⟨hother, hlater⟩ := List.forall_mem_cons.mp hothers
      cases rest with
      | nil =>
        rw [String.intercalate_singleton] at hsame
        cases later with
        | nil => rw [hsame, String.intercalate_singleton]
        | cons next more =>
          rw [String.intercalate_cons_cons] at hsame
          exact absurd hsame hpart.ne_joined
      | cons second remaining =>
        rw [String.intercalate_cons_cons] at hsame
        cases later with
        | nil =>
          rw [String.intercalate_singleton] at hsame
          exact absurd hsame.symm hother.ne_joined
        | cons next more =>
          rw [String.intercalate_cons_cons] at hsame
          obtain ⟨rfl, htail⟩ := eq_of_joined_eq hpart hother hsame
          rw [ih hrest hlater (List.cons_ne_nil _ _) (List.cons_ne_nil _ _) htail]

/-- Table and attributes have unmistakable names, and the last attribute is not named like a
direction. -/
structure PlainlyNamed (i : IndexedAttributes) : Prop where
  unmistakable : ∀ name ∈ i.table :: i.attributes, Unmistakable name
  last_ne : ∀ direction : Direction, i.attributes.getLast? ≠ some direction.name

instance : DecidablePred PlainlyNamed := fun i =>
  decidable_of_iff ((∀ name ∈ i.table :: i.attributes, Unmistakable name) ∧
      i.attributes.getLast? ≠ some Direction.asc.name ∧
      i.attributes.getLast? ≠ some Direction.desc.name)
    ⟨fun ⟨hnames, hasc, hdesc⟩ => ⟨hnames, fun direction => by cases direction <;> assumption⟩,
      fun ⟨hnames, hlast⟩ => ⟨hnames, hlast .asc, hlast .desc⟩⟩

/-- The index on attributes in one direction or in none. -/
def ofDirection (i : IndexedAttributes) : Option Direction → IndexRequest
  | none => plain i.table i.attributes
  | some direction => directed i.table i.attributes direction

theorem name_ofDirection (i : IndexedAttributes) (direction : Option Direction) :
    (ofDirection i direction).name = nameOf i.table i.attributes direction := by
  cases direction <;> rfl

theorem exists_ofDirection (hmem : r ∈ ofIndexed i) : ∃ direction, r = ofDirection i direction := by
  obtain rfl | ⟨direction, _, rfl⟩ := mem_ofIndexed_iff.mp hmem
  · exact ⟨none, rfl⟩
  · exact ⟨some direction, rfl⟩

/-- The parts of a plain name are unmistakable. -/
theorem PlainlyNamed.unmistakable_parts (hplain : PlainlyNamed i) (direction : Option Direction) :
    ∀ part ∈ i.table :: i.attributes ++ (direction.map Direction.name).toList ++ ["index"],
      Unmistakable part := by
  refine List.forall_mem_append.mpr ⟨List.forall_mem_append.mpr ⟨hplain.unmistakable, ?_⟩,
    by decide⟩
  rcases direction with _ | _ | _ <;> decide

/-- Plain names tell table, attributes and direction of an index. -/
theorem ofDirection_injective {j : IndexedAttributes} {d e : Option Direction}
    (hi : PlainlyNamed i) (hj : PlainlyNamed j)
    (hname : (ofDirection i d).name = (ofDirection j e).name) :
    ofDirection i d = ofDirection j e := by
  rw [name_ofDirection, name_ofDirection] at hname
  have hparts := intercalate_separator_injective (hi.unmistakable_parts d)
    (hj.unmistakable_parts e) (List.cons_ne_nil _ _) (List.cons_ne_nil _ _) hname
  have hlists := List.append_cancel_right hparts
  rw [List.cons_append, List.cons_append, List.cons.injEq] at hlists
  obtain ⟨htable, hattributes⟩ := hlists
  -- An index with a direction meets one without only where the last attribute is named like it.
  cases d with
  | none =>
    cases e with
    | none =>
      rw [Option.map_none, Option.toList_none, List.append_nil, List.append_nil] at hattributes
      rw [ofDirection, ofDirection, htable, hattributes]
    | some e =>
      rw [Option.map_none, Option.toList_none, List.append_nil] at hattributes
      refine absurd ?_ (hi.last_ne e)
      rw [hattributes]
      exact List.getLast?_concat
  | some d =>
    cases e with
    | none =>
      rw [Option.map_none, Option.toList_none, List.append_nil] at hattributes
      refine absurd ?_ (hj.last_ne d)
      rw [← hattributes]
      exact List.getLast?_concat
    | some e =>
      obtain ⟨hattributes, hdirection⟩ := List.append_inj' hattributes rfl
      rw [ofDirection, ofDirection, htable, hattributes,
        Direction.name_injective (List.singleton_inj.mp hdirection)]

/-- Nor can the index on the table field be mistaken for one on attributes. -/
theorem name_onTable_ne (hne : i.attributes ≠ []) (hplain : PlainlyNamed i)
    (direction : Option Direction) : onTable.name ≠ (ofDirection i direction).name := by
  intro hname
  rw [name_ofDirection] at hname
  have htable : ∀ part ∈ ["table", "index"], Unmistakable part := by decide
  have hparts := intercalate_separator_injective htable (hplain.unmistakable_parts direction)
    (List.cons_ne_nil _ _) (List.cons_ne_nil _ _) hname
  have hlength := congrArg List.length hparts
  have hpositive := List.length_pos_iff.mpr hne
  simp only [List.length_append, List.length_cons, List.length_nil] at hlength
  omega

/-- Where names are plain, no two different indexes would have one name. -/
theorem namesApart_of_plainlyNamed (hplain : ∀ i ∈ indexed schemas, PlainlyNamed i) :
    NamesApart schemas := by
  intro r hr q hq hname
  obtain rfl | ⟨i, hi, hr⟩ := mem_wanted_iff.mp hr
  · obtain rfl | ⟨j, hj, hq⟩ := mem_wanted_iff.mp hq
    · rfl
    · obtain ⟨e, rfl⟩ := exists_ofDirection hq
      exact absurd hname (name_onTable_ne (attributes_ne_nil hj) (hplain j hj) e)
  · obtain ⟨d, rfl⟩ := exists_ofDirection hr
    obtain rfl | ⟨j, hj, hq⟩ := mem_wanted_iff.mp hq
    · exact absurd hname.symm (name_onTable_ne (attributes_ne_nil hi) (hplain i hi) d)
    · obtain ⟨e, rfl⟩ := exists_ofDirection hq
      exact ofDirection_injective (hplain i hi) (hplain j hj) hname

end IndexRequest

end DocMapper
