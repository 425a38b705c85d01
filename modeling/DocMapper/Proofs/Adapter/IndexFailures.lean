import DocMapper.Proofs.Adapter.Indexes
import DocMapper.Proofs.Text.Parts

/-!
# Failures to create indexes

When the creation of indexes goes on after a failure. It should where the store says that the index
is there. The text that is asked also names the index, so the names of tables and attributes have a
say in it where they contain the word that is looked for.
-/

namespace DocMapper

open Schema IndexRequest

namespace StoreError

/-- The store refuses the caller's credentials or an update. -/
def refuses (e : StoreError) : Bool := e.status? = some 401 || e.status? = some 409

/-- The store says that what was to be made is there: a conflict that is no refusal, and whose own
text speaks of existence. -/
def saysExists (e : StoreError) : Bool :=
  e.kind = .conflict && Text.contains "exist" e.detail && !e.refuses

/-- A refusal does not speak of existence. -/
def Candid (e : StoreError) : Prop := e.refuses = true → Text.contains "exist" e.detail = false

end StoreError

/-! ## The word in names -/

namespace IndexRequest

variable {schemas : List Schema} {r : IndexRequest} {i : IndexedAttributes}

/-- The name of an index contains the word where the table or an attribute does. -/
theorem contains_nameOf (table : String) (attributes : List String)
    (direction : Option Direction) : Text.contains "exist" (nameOf table attributes direction) =
      (table :: attributes).any (Text.contains "exist") := by
  have hdirection : (direction.map Direction.name).toList.any (Text.contains "exist") = false := by
    rcases direction with _ | _ | _ <;> decide
  have hindex : ["index"].any (Text.contains "exist") = false := by decide
  have hparts : table :: attributes ++ (direction.map Direction.name).toList ++ ["index"] ≠ [] :=
    List.cons_ne_nil _ _
  have hapart : ∀ c ∈ separator.toList, c ∉ "exist".toList := by simp [separator]
  rw [nameOf, Text.contains_intercalate (by decide) hapart hparts, List.any_append, List.any_append,
    hdirection, hindex, Bool.or_false, Bool.or_false]

/-- No table or attribute that has an index contains the word in its name. -/
def NamesSilent (schemas : List Schema) : Prop :=
  ∀ i ∈ indexed schemas, ∀ name ∈ i.table :: i.attributes, Text.contains "exist" name = false

/-- The names in question are those of the generated requests. -/
theorem namesSilent_iff : NamesSilent schemas ↔
    ∀ r ∈ generate schemas, Text.contains "exist" r.name = false := by
  have hnames : ∀ i : IndexedAttributes, (∀ name ∈ i.table :: i.attributes,
      Text.contains "exist" name = false) ↔
        (i.table :: i.attributes).any (Text.contains "exist") = false := by
    intro i
    rw [List.any_eq_false]
    simp only [Bool.not_eq_true]
  constructor
  · intro hsilent r hr
    obtain rfl | ⟨i, hi, hr⟩ := mem_wanted_iff.mp (mem_wanted_of_mem_generate hr)
    · decide
    · obtain ⟨direction, rfl⟩ := exists_ofDirection hr
      rw [name_ofDirection, contains_nameOf]
      exact (hnames i).mp (hsilent i hi)
  · intro hsilent i hi
    have hwanted : ofDirection i none ∈ wanted schemas :=
      mem_wanted_iff.mpr (Or.inr ⟨i, hi, mem_ofIndexed_iff.mpr (Or.inl rfl)⟩)
    obtain ⟨q, hq, hname⟩ := exists_mem_generate hwanted
    have hquiet := hsilent q hq
    rw [hname, name_ofDirection, contains_nameOf] at hquiet
    exact (hnames i).mpr hquiet

end IndexRequest

/-! ## Answers of the store -/

/-- What a connection answers to requests for indexes that are made in turn. -/
def Connection.indexAnswers : Connection → List IndexRequest → List (Except StoreError IndexReceipt)
  | _, [] => []
  | c, r :: rest =>
    (c.perform (.createIndex r)).1 :: (c.perform (.createIndex r)).2.indexAnswers rest

/-- What comes of one request: a failure ends the run, unless it passes. -/
def indexStep (passes : IndexRequest → StoreError → Bool) (r : IndexRequest) :
    Except StoreError IndexReceipt → Except Error Unit
  | .ok _ => .ok ()
  | .error e => if passes r e then .ok () else .error (.store (some r.name) e)

/-- What comes of requests with their answers in turn. -/
def indexOutcome (passes : IndexRequest → StoreError → Bool)
    (entries : List (IndexRequest × Except StoreError IndexReceipt)) : Except Error Unit :=
  entries.forM fun entry => indexStep passes entry.1 entry.2

theorem indexStep_eq_ok_iff {passes : IndexRequest → StoreError → Bool} {r : IndexRequest}
    {answer : Except StoreError IndexReceipt} : indexStep passes r answer = .ok () ↔
      ∀ e, answer = .error e → passes r e = true := by
  rcases answer with e | receipt
  · rw [indexStep]
    by_cases hpasses : passes r e = true
    · rw [if_pos hpasses]
      exact ⟨fun _ cause hcause => Except.error.inj hcause ▸ hpasses, fun _ => rfl⟩
    · rw [if_neg hpasses]
      refine ⟨fun hok => ?_, fun hall => absurd (hall e rfl) hpasses⟩
      cases hok
  · refine ⟨fun _ e herror => ?_, fun _ => rfl⟩
    cases herror

variable {passes : IndexRequest → StoreError → Bool}
  {entries : List (IndexRequest × Except StoreError IndexReceipt)}

/-- A run is completed where all failures pass. -/
theorem indexOutcome_eq_ok_iff : indexOutcome passes entries = .ok () ↔
    ∀ entry ∈ entries, ∀ e, entry.2 = .error e → passes entry.1 e = true := by
  induction entries with
  | nil => exact ⟨fun _ => List.forall_mem_nil _, fun _ => rfl⟩
  | cons entry rest ih =>
    have hcons : indexOutcome passes (entry :: rest) =
        (indexStep passes entry.1 entry.2 >>= fun _ => indexOutcome passes rest) := rfl
    rw [hcons, bind_eq_ok_iff, List.forall_mem_cons, ← ih, ← indexStep_eq_ok_iff]
    constructor
    · rintro ⟨⟨⟩, hstep, hrest⟩
      exact ⟨hstep, hrest⟩
    · rintro ⟨hstep, hrest⟩
      exact ⟨(), hstep, hrest⟩

/-- Two ways to pass over failures that agree on those at hand have one outcome. -/
theorem indexOutcome_congr {others : IndexRequest → StoreError → Bool}
    (hsame : ∀ entry ∈ entries, ∀ e, entry.2 = .error e → passes entry.1 e = others entry.1 e) :
    indexOutcome passes entries = indexOutcome others entries := by
  induction entries with
  | nil => rfl
  | cons entry rest ih =>
    obtain ⟨hfirst, hrest⟩ := List.forall_mem_cons.mp hsame
    have hstep : indexStep passes entry.1 entry.2 = indexStep others entry.1 entry.2 := by
      cases hanswer : entry.2 with
      | ok receipt => rfl
      | error e => rw [indexStep, indexStep, hfirst e hanswer]
    have hcons : ∀ way, indexOutcome way (entry :: rest) =
        (indexStep way entry.1 entry.2 >>= fun _ => indexOutcome way rest) := fun _ => rfl
    rw [hcons, hcons, hstep, ih hrest]

namespace Adapter

variable {a : Adapter} {r : IndexRequest} {e : StoreError} {requests : List IndexRequest}

/-- A failure is passed over where it says that the index is there, together with its name. -/
def passesOver (r : IndexRequest) (e : StoreError) : Bool := alreadyExists (.store (some r.name) e)

/-- Creating an index answers what comes of the store's answer. -/
theorem createIndex_perform (r : IndexRequest) (a : Adapter) : createIndex r a =
    (indexStep passesOver r (a.connection.perform (.createIndex r)).1,
      { a with connection := (a.connection.perform (.createIndex r)).2 }) := by
  have hattempt : (liftM (attempt (.createIndex r)) : Action (Except StoreError IndexReceipt)) a =
      (.ok (a.connection.perform (.createIndex r)).1,
        { a with connection := (a.connection.perform (.createIndex r)).2 }) := rfl
  refine (bind_of_ok hattempt).trans ?_
  rcases (a.connection.perform (.createIndex r)).1 with e | receipt
  · by_cases hpasses : passesOver r e = true
    · have hexists : alreadyExists (.store (some r.name) e) = true := hpasses
      simp only [indexStep, if_pos hpasses, if_pos hexists]
      rfl
    · have hstops : ¬alreadyExists (.store (some r.name) e) = true := hpasses
      simp only [indexStep, if_neg hpasses, if_neg hstops]
      rfl
  · rfl

/-- Creating the indexes comes to the outcome of the answers in their order. -/
theorem forM_createIndex_fst (requests : List IndexRequest) (a : Adapter) :
    (requests.forM createIndex a).1 =
      indexOutcome passesOver (requests.zip (a.connection.indexAnswers requests)) := by
  induction requests generalizing a with
  | nil => rfl
  | cons r rest ih =>
    have hcons : (r :: rest).forM createIndex a =
        (createIndex r >>= fun _ => rest.forM createIndex) a := rfl
    have houtcome : indexOutcome passesOver
        ((r :: rest).zip (a.connection.indexAnswers (r :: rest))) =
          (indexStep passesOver r (a.connection.perform (.createIndex r)).1 >>= fun _ =>
            indexOutcome passesOver
              (rest.zip ((a.connection.perform (.createIndex r)).2.indexAnswers rest))) := rfl
    have hstep := createIndex_perform r a
    rw [hcons, houtcome]
    cases hone : indexStep passesOver r (a.connection.perform (.createIndex r)).1 with
    | ok =>
      rw [hone] at hstep
      rw [bind_of_ok hstep, ih]
      rfl
    | error e =>
      rw [hone] at hstep
      rw [bind_of_error hstep]
      rfl

/-- The text that is asked is that of the store with the name of the index in front. -/
theorem passesOver_eq (r : IndexRequest) (e : StoreError) : passesOver r e =
    (decide (e.kind = .conflict) &&
      (Text.contains "exist" r.name || Text.contains "exist" e.detail)) := by
  have hdetail : Text.contains "exist" (r.name ++ ": " ++ e.detail) =
      (Text.contains "exist" r.name || Text.contains "exist" e.detail) :=
    Text.contains_append_separator (by decide) (by simp) _ _
  rw [← hdetail]
  rfl

/-- A silent name leaves the decision to what the failure says. -/
theorem passesOver_of_silent (hname : Text.contains "exist" r.name = false) (hcandid : e.Candid) :
    passesOver r e = e.saysExists := by
  rw [passesOver_eq, hname, Bool.false_or, StoreError.saysExists]
  cases hrefuses : e.refuses with
  | true => rw [hcandid hrefuses, Bool.and_false, Bool.false_and]
  | false => rw [Bool.not_false, Bool.and_true]

/-- An adapter whose store gives these answers to requests for indexes. -/
def staging (answers : List (Except StoreError IndexReceipt)) : Adapter :=
  { connection := {
      store := .empty
      staged := fun p => match p with
        | .createIndex => answers
        | _ => [] } }

/-- Staged answers are given as staged. -/
theorem indexAnswers_eq_staged {answers : List (Except StoreError IndexReceipt)}
    (c : Connection) (hstaged : c.staged .createIndex = answers)
    (hlength : answers.length = requests.length) : c.indexAnswers requests = answers := by
  induction requests generalizing c answers with
  | nil => exact (List.length_eq_zero_iff.mp hlength).symm
  | cons r rest ih =>
    obtain _ | ⟨answer, later⟩ := answers
    · cases hlength
    · have hperform : c.perform (.createIndex r) =
          (answer, ({ c with log := c.log ++ [.createIndex r] } : Connection).unstage
            .createIndex) := by
        simp only [Connection.perform, hstaged]
      have htail : ((({ c with log := c.log ++ [.createIndex r] } : Connection).unstage
          .createIndex).staged .createIndex) = later := by
        rw [Connection.unstage]
        simp only [if_pos, hstaged]
        rfl
      rw [Connection.indexAnswers, hperform, ih _ htail (Nat.succ.inj hlength)]

theorem indexAnswers_staging {answers : List (Except StoreError IndexReceipt)}
    (hlength : answers.length = requests.length) :
    (staging answers).connection.indexAnswers requests = answers :=
  indexAnswers_eq_staged _ rfl hlength

/-- What the store answers where it refuses one request and meets the others. -/
def refusing (r : IndexRequest) (e : StoreError) (q : IndexRequest) :
    Except StoreError IndexReceipt :=
  if q = r then .error e else .ok ⟨"created", "_design/" ++ q.name, q.name⟩

/-- Only the one request is refused. -/
theorem eq_of_refusing_eq_error {q : IndexRequest} {cause : StoreError}
    (herror : refusing r e q = .error cause) : q = r ∧ cause = e := by
  rw [refusing] at herror
  by_cases heq : q = r
  · rw [if_pos heq] at herror
    exact ⟨heq, (Except.error.inj herror).symm⟩
  · rw [if_neg heq] at herror
    cases herror

/-- Where the name of an index contains the word, all its conflicts are passed over. -/
theorem forM_createIndex_of_named (hname : Text.contains "exist" r.name = true)
    (hkind : e.kind = .conflict) :
    (requests.forM createIndex (staging (requests.map (refusing r e)))).1 = .ok () := by
  rw [forM_createIndex_fst, indexAnswers_staging (List.length_map _), indexOutcome_eq_ok_iff,
    ← List.map_prod_left_eq_zip]
  rintro entry hentry cause hcause
  obtain ⟨q, _, rfl⟩ := List.mem_map.mp hentry
  obtain ⟨rfl, rfl⟩ := eq_of_refusing_eq_error hcause
  rw [passesOver_eq, hkind, hname]
  rfl

/-- The store refuses the caller's credentials, and does not speak of existence. -/
def unauthorized : StoreError := .http 401 "unauthorized" "Name or password is incorrect."

/-- Creating indexes goes on after a failure exactly where the store says that the index is there,
and ends with every other failure, if and only if no table or attribute that has an index contains
the word that is looked for in its name. -/
theorem index_goes_on_iff_namesSilent (schemas : List Schema) :
    (∀ a : Adapter, let answers := a.connection.indexAnswers (generate schemas)
      (∀ e, .error e ∈ answers → e.Candid) →
        (index schemas a).1 =
          indexOutcome (fun _ e => e.saysExists) ((generate schemas).zip answers)) ↔
      NamesSilent schemas := by
  constructor
  · intro hgoes
    rw [namesSilent_iff]
    intro r hr
    by_contra hnamed
    rw [Bool.not_eq_false] at hnamed
    -- A store that refuses this one request for its caller's credentials tells the two apart.
    have hcandid : ∀ e, .error e ∈ (generate schemas).map (refusing r unauthorized) →
        e.Candid := by
      intro e he
      obtain ⟨q, _, hq⟩ := List.mem_map.mp he
      obtain ⟨_, rfl⟩ := eq_of_refusing_eq_error hq
      exact fun _ => by decide
    have houtcome := hgoes (staging ((generate schemas).map (refusing r unauthorized)))
    rw [indexAnswers_staging (List.length_map _)] at houtcome
    have hok := (houtcome hcandid).symm.trans (forM_createIndex_of_named hnamed rfl)
    rw [indexOutcome_eq_ok_iff, ← List.map_prod_left_eq_zip] at hok
    have hsays := hok (r, refusing r unauthorized r) (List.mem_map_of_mem hr) unauthorized
      (if_pos rfl)
    exact absurd hsays (by decide)
  · intro hsilent a answers hcandid
    rw [index, forM_createIndex_fst]
    refine indexOutcome_congr fun entry hentry e he => ?_
    obtain ⟨hrequest, hanswer⟩ := List.of_mem_zip hentry
    rw [he] at hanswer
    exact passesOver_of_silent (namesSilent_iff.mp hsilent entry.1 hrequest) (hcandid e hanswer)

/-- A table with an index. -/
def indexedTable (table attr : String) : Schema :=
  { table, primaryKey := ⟨"id", .text, none⟩, indexes := [{ attr }] }

/-- Creating indexes goes on where one is there already, and ends where the disk is full. -/
theorem index_goes_on_sizes :
    let answers : List (Except StoreError IndexReceipt) := [
      .error (.http 412 "file_exists" "The index already exists."), .ok ⟨"created", "", ""⟩,
      .error (.http 500 "internal_server_error" "disk full"), .ok ⟨"created", "", ""⟩]
    NamesSilent [indexedTable "items" "size"] ∧ (∀ e, .error e ∈ answers → e.Candid) ∧
      (index [indexedTable "items" "size"] (staging answers)).1 =
        .error (.store (some "items__size__asc__index")
          (.http 500 "internal_server_error" "disk full")) := by
  intro answers
  have hsilent : NamesSilent [indexedTable "items" "size"] := by
    intro i hi
    obtain rfl := List.mem_singleton.mp hi
    decide
  have hcandid : ∀ e, .error e ∈ answers → e.Candid := by
    intro e he hrefuses
    simp only [answers, List.mem_cons, List.not_mem_nil, or_false, Except.error.injEq,
      reduceCtorEq, false_or] at he
    obtain rfl | rfl := he <;> exact absurd hrefuses (by decide)
  refine ⟨hsilent, hcandid, ?_⟩
  have hlength : answers.length = (generate [indexedTable "items" "size"]).length := by decide
  have hanswers := indexAnswers_staging hlength
  have houtcome := (index_goes_on_iff_namesSilent _).mpr hsilent (staging answers)
  rw [hanswers] at houtcome
  refine (houtcome hcandid).trans ?_
  decide

/-- Where a table is called "existing", rejected credentials are passed over. -/
theorem credentials_passed_over :
    let requests := generate [indexedTable "existing" "size"]
    ∃ r ∈ requests, unauthorized.refuses = true ∧
      Text.contains "exist" unauthorized.detail = false ∧
      (r, .error unauthorized) ∈ requests.zip
        ((staging (requests.map (refusing r unauthorized))).connection.indexAnswers requests) ∧
      (index [indexedTable "existing" "size"]
        (staging (requests.map (refusing r unauthorized)))).1 = .ok () := by
  intro requests
  have hr : plain "existing" ["size"] ∈ requests := by decide
  refine ⟨_, hr, by decide, by decide, ?_, forM_createIndex_of_named (by decide) rfl⟩
  rw [indexAnswers_staging (List.length_map _), ← List.map_prod_left_eq_zip]
  refine List.mem_map.mpr ⟨_, hr, ?_⟩
  rw [refusing, if_pos rfl]

end Adapter

end DocMapper
