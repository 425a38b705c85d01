import DocMapper.Proofs.Adapter.Answers
import DocMapper.Proofs.Adapter.Records
import DocMapper.Proofs.Repository.Settings
import DocMapper.Proofs.Store.Contents

/-!
# Ways to read a record

A record is read under its key, alone or as one of many, or it comes as a document that a query
finds. In the first case the caller gives the key, in the second the id of the document does. Main
statement: every way makes the same model of a live record, or fails alike, and remembers the same
revision.
-/

namespace DocMapper

open DocMapper.Action Adapter MemoryStore KeyedMap

/-! ## Answers and remembered revisions -/

namespace Action

variable {α β γ : Type} {a b : Adapter} {x : Action α} {e : Except Error α} {t : RevisionTable}

/-- The action answers this, and leaves these revisions remembered. -/
structure Ends (x : Action α) (a : Adapter) (answer : Except Error α)
    (remembered : RevisionTable) : Prop where
  answer : (x a).1 = answer
  remembered : (x a).2.revisions = remembered

/-- Only what the action does counts, not how it is put together. -/
theorem Ends.congr {y : Action α} (hsame : x a = y b) (hy : y.Ends b e t) : x.Ends a e t := by
  obtain ⟨rfl, rfl⟩ := hy
  exact ⟨congrArg Prod.fst hsame, congrArg (fun run => run.2.revisions) hsame⟩

/-- What only puts the answer into another form ends with the answer in that form. -/
theorem Ends.bind_pure {y : Action β} {f : β → Action γ} {g : α → β} {h : α → γ}
    (hy : y.Ends a (e.map g) t) (hf : ∀ v, f (g v) = pure (h v)) :
    (y >>= f).Ends a (e.map h) t := by
  obtain ⟨hanswer, hremembered⟩ := hy
  rcases hrun : y a with ⟨cause | w, b⟩
  · rw [hrun] at hanswer hremembered
    rw [map_eq_error hanswer.symm]
    have hthrow : (throw cause : Action γ).Ends b (.error cause) t := ⟨rfl, hremembered⟩
    exact hthrow.congr (bind_of_error hrun)
  · rw [hrun] at hanswer hremembered
    obtain ⟨v, rfl, rfl⟩ := map_eq_ok hanswer.symm
    have hnext : (f (g v)).Ends b (.ok (h v)) t := by
      rw [hf v]
      exact ⟨rfl, hremembered⟩
    exact hnext.congr (bind_of_ok hrun)

/-- A traversal of one element ends as its step does. -/
theorem Ends.mapM_singleton {f : β → Action α} {v : β} (hf : (f v).Ends a e t) :
    ([v].mapM f).Ends a (e.map ([·])) t := by
  have hmap : e.map id = e := by cases e <;> rfl
  rw [← hmap] at hf
  rw [List.mapM_cons]
  exact hf.bind_pure fun _ => rfl

theorem ends_lift (e : Except Error α) (a : Adapter) :
    Ends (liftM e : Action α) a e a.revisions := by
  cases e <;> exact ⟨rfl, rfl⟩

end Action

/-! ## Adapters that host a schema -/

namespace Adapter

variable {a : Adapter} {schema : Schema} {id : String} {doc : Document}

/-- The adapter has come out of a run that began with the empty store and registered the schema.
    After that, the run has registered no other primary key for the table. -/
inductive Hosts (schema : Schema) : Adapter → Prop
  | run (digest : Option String → Document → UInt64) (config : Config) (before after : List Step)
      (hcheck : schema.check = .ok ()) (hagree : ∀ step ∈ after, step.Agrees schema) :
      Hosts schema (runAll (before ++ .register schema :: after) (ofStore (fresh digest) config))

/-- A fresh adapter is sound. -/
theorem sound_ofStore (digest : Option String → Document → UInt64) (config : Config) :
    Sound (ofStore (fresh digest) config) := ⟨rfl, wellKept_empty⟩

/-- A hosted table can name a document for every key. -/
theorem Hosts.documentId_eq (hhosts : a.Hosts schema) (key : Key) :
    Identity.documentId schema.table key = .ok (recordId schema.table key.toText) := by
  obtain ⟨digest, config, before, after, hcheck, hagree⟩ := hhosts
  exact Identity.documentId_eq_ok_iff.mpr ⟨separator_of_check hcheck, rfl⟩

theorem Hosts.sound (hhosts : a.Hosts schema) : Sound a := by
  obtain ⟨digest, config, before, after, hcheck, hagree⟩ := hhosts
  exact sound_runAll _ (sound_ofStore digest config)

/-- The registry of the host still has the schema. -/
theorem Hosts.knows (hhosts : a.Hosts schema) : a.Knows schema := by
  obtain ⟨digest, config, before, after, hcheck, hagree⟩ := hhosts
  rw [runAll_append]
  exact knows_runAll after hagree (knows_register _ hcheck)

/-- Every document says itself what its id and its revision are. -/
theorem Hosts.keptUnder (hhosts : a.Hosts schema) (hget : a.documents.get? id = some doc) :
    ∃ rev, KeptUnder id rev doc := by
  obtain ⟨digest, config, before, after, hcheck, hagree⟩ := hhosts
  obtain ⟨calls, hstore⟩ := exists_calls_runAll (before ++ .register schema :: after)
    (sound_ofStore digest config)
  have hchanges : Changes [] ((fresh digest).history calls)
      ((fresh digest).performAll calls).documents := history_changes (fresh digest) calls
  rw [documents, hstore] at hget
  exact hchanges.keptUnder (List.forall_mem_nil _) (id, doc) (Dict.mem_of_get? hget)

/-- No run of agreeing steps ends the hosting. -/
theorem Hosts.runAll (hhosts : a.Hosts schema) {steps : List Step}
    (hagree : ∀ step ∈ steps, step.Agrees schema) : (runAll steps a).Hosts schema := by
  obtain ⟨digest, config, before, after, hcheck, hafter⟩ := hhosts
  rw [← runAll_append, List.append_assoc, List.cons_append]
  exact .run digest config before (after ++ steps) hcheck
    (List.forall_mem_append.mpr ⟨hafter, hagree⟩)

/-- Where a schema is known, a record has its attributes and its key under the name the schema has
    for it. -/
theorem Knows.attributesOf_eq (hknows : a.Knows schema) (key : Key) (doc : Document) :
    attributesOf a.registry schema.table key doc = doc.restore schema.primaryKey.attr key := by
  obtain ⟨known, hget, hattr⟩ := hknows
  rw [attributesOf, hget, ← hattr]

/-- The query asks for whole documents, and is answered with this one alone. -/
def FindsOnly (a : Adapter) (query : Query) (doc : Document) : Prop :=
  query.fields = none ∧
    ∃ answer, (a.connection.store.perform (.find query)).1 = .ok answer ∧ answer.docs = [doc]

/-- The query is answered with the one document. -/
theorem find_eq {query : Query} (hunstaged : a.Unstaged) (hfinds : a.FindsOnly query doc) :
    ∃ answer, Adapter.find query a = (.ok answer, a.served (.find query)) ∧ answer.docs = [doc] := by
  obtain ⟨_, answer, hanswer, hdocs⟩ := hfinds
  exact ⟨answer, ask_of_ok hunstaged hanswer, hdocs⟩

end Adapter

namespace Model

variable {α : Type} {a : Adapter} {key : Key} {doc : Document} {id rev : String} {query : Query}

/-- Finishing a record remembers its revision, whether or not it can be decoded. -/
theorem ends_finish (m : Model α) (record : StoredRecord) (a : Adapter) :
    (m.finish record).Ends a (m.ofAttributes record.attributes)
      (a.revisions.record record.id record.rev) := by
  constructor <;> rw [finish_eq]

/-! ## Under the key -/

/-- A key is read from the live document under its id. -/
theorem read_ends (m : Model α) (hhosts : a.Hosts m.schema)
    (hid : Identity.documentId m.schema.table key = .ok id)
    (hlive : lookUp a.documents id = .ok doc) (hrev : doc.revision? = some rev) :
    (m.read key).Ends a (m.ofAttributes (doc.restore m.keyField key))
      (a.revisions.record id rev) := by
  have hread := read_of_lookUp hhosts.sound.unstaged hid hlive hrev
  rw [hhosts.knows.attributesOf_eq] at hread
  exact .congr (bind_of_ok hread) (m.ends_finish _ _)

/-- A list of one key is read like the key. -/
theorem readAll_ends (m : Model α) (hhosts : a.Hosts m.schema)
    (hid : Identity.documentId m.schema.table key = .ok id)
    (hlive : lookUp a.documents id = .ok doc) (hrev : doc.revision? = some rev) :
    (m.readAll [key]).Ends a ((m.ofAttributes (doc.restore m.keyField key)).map ([·]))
      (a.revisions.record id rev) := by
  have hread := readAll_of_lookUp hhosts.sound.unstaged hid hlive hrev
  rw [hhosts.knows.attributesOf_eq] at hread
  exact .congr (bind_of_ok hread) (.mapM_singleton (m.ends_finish _ _))

/-! ## As a document that is found -/

/-- What a statement comes to that finds one document and makes this model of it. -/
def outputOf (m : Model α) (doc : Document) (groupBy : Option String) (x : α) : Output α :=
  match groupBy with
  | none => .rows (.models [x])
  | some attr => .groups
      [(Aggregate.groupKey (Dict.get? doc attr) (m.schema.attributeType? attr), .models [x])]

section Found

variable {e : Except Error α} {t : RevisionTable} {m : Model α}

/-- A whole document is decoded under the key that its id spells. -/
theorem ofDocument_ends (m : Model α) (a : Adapter)
    (hid : Identity.documentId m.schema.table key = .ok id)
    (hkind : key.kind = m.schema.primaryKey.kind) (hkept : KeptUnder id rev doc) :
    (m.ofDocument doc).Ends a (m.ofAttributes (doc.restore m.keyField key))
      (a.revisions.record id rev) := by
  have hkey := Identity.keyOf_of_documentId hid
  rw [hkind] at hkey
  have hdoc : m.ofDocument doc =
      remember id rev >>= fun _ => liftM (m.ofAttributes (doc.restore m.keyField key)) := by
    unfold ofDocument
    simp only [hkept.id?_eq, hkey, lift_ok_bind, hkept.revision?_eq]
  rw [hdoc]
  exact (ends_lift _ _).congr (bind_of_ok rfl)

/-- One whole document makes one model. -/
theorem rowsOf_ends (hdoc : (m.ofDocument doc).Ends a e t) :
    (m.rowsOf false [doc]).Ends a (e.map fun x => .models [x]) t := by
  exact hdoc.mapM_singleton.bind_pure fun _ => rfl

/-- A raw query ends as the decoding of its one document. -/
theorem raw_ends (hunstaged : a.Unstaged) (hfinds : a.FindsOnly query doc)
    (hdoc : ∀ b : Adapter, b.revisions = a.revisions → (m.ofDocument doc).Ends b e t) :
    (m.raw query).Ends a (e.map fun x => .models [x]) t := by
  obtain ⟨answer, hfind, hdocs⟩ := find_eq hunstaged hfinds
  refine .congr (bind_of_ok hfind) ?_
  rw [hfinds.1, hdocs]
  exact rowsOf_ends (hdoc _ rfl)

/-- A planned query ends as the decoding of its one document. -/
theorem findOutput_ends (groupBy : Option String) (hunstaged : a.Unstaged)
    (hfinds : a.FindsOnly query doc)
    (hdoc : ∀ b : Adapter, b.revisions = a.revisions → (m.ofDocument doc).Ends b e t) :
    (m.findOutput query groupBy).Ends a (e.map (m.outputOf doc groupBy)) t := by
  obtain ⟨answer, hfind, hdocs⟩ := find_eq hunstaged hfinds
  have hrows := rowsOf_ends (hdoc (a.served (.find query)) rfl)
  refine .congr (bind_of_ok hfind) ?_
  rw [hfinds.1, hdocs]
  cases groupBy with
  | none => exact hrows.bind_pure fun _ => rfl
  | some attr =>
    have hgroup : groupDocuments attr (m.schema.attributeType? attr) [doc] =
        [(Aggregate.groupKey (Dict.get? doc attr) (m.schema.attributeType? attr), [doc])] := rfl
    have hsingle := Ends.mapM_singleton
      (f := fun group : String × List Document =>
        m.rowsOf false group.2 >>= fun rows => pure (group.1, rows))
      (v := (Aggregate.groupKey (Dict.get? doc attr) (m.schema.attributeType? attr), [doc]))
      (hrows.bind_pure fun _ => rfl)
    rw [map_map] at hsingle
    simp only [hgroup]
    exact hsingle.bind_pure fun _ => rfl

/-- A statement ends as the decoding of its one document. -/
theorem execute_ends {s : Statement} {groupBy : Option String} {warnings : List Warning}
    (hplan : s.plan a.config.queryLimit = .ok (.find query none groupBy, warnings))
    (hunstaged : a.Unstaged) (hfinds : a.FindsOnly query doc)
    (hdoc : ∀ b : Adapter, b.revisions = a.revisions → (m.ofDocument doc).Ends b e t) :
    (m.execute s).Ends a (e.map (m.outputOf doc groupBy)) t :=
  .congr (m.execute_of_plan hplan) (findOutput_ends groupBy hunstaged hfinds hdoc)

/-- A page that has room ends as the decoding of its one document. -/
theorem page_ends {q : Pager} {n : Nat} (hquery : q.queryFor n = .ok query) (hroom : q.room n ≠ 0)
    (hunstaged : a.Unstaged) (hfinds : a.FindsOnly { query with limit := some (q.room n) } doc)
    (hdoc : ∀ b : Adapter, b.revisions = a.revisions → (m.ofDocument doc).Ends b e t) :
    (m.page n q a).1.1 = e.map (fun x => .models [x]) ∧ (m.page n q a).2.revisions = t := by
  obtain ⟨answer, hfind, hdocs⟩ := find_eq hunstaged hfinds
  have hfields : query.fields = none := hfinds.1
  obtain ⟨hanswer, hremembered⟩ := rowsOf_ends (hdoc (a.served _) rfl)
  rw [page_of_answer hquery hroom hfind, hfields, hdocs]
  exact ⟨hanswer, hremembered⟩

end Found

/-- Attributes are decoded, or refused with a message. -/
theorem ofAttributes_cases (m : Model α) (attributes : Fields) :
    (∃ x, m.ofAttributes attributes = .ok x) ∨
      ∃ message, m.ofAttributes attributes = .error (.serialization message) := by
  rw [ofAttributes]
  cases m.decode (.obj attributes) with
  | ok x => exact Or.inl ⟨x, rfl⟩
  | error message => exact Or.inr ⟨message, rfl⟩

/-- Every way to read a live record makes the same model of it, or fails with the same error of the
    model type, and remembers the revision of its document: reading its key alone or as one of many,
    and every query, statement or page that is answered with its document alone, as a whole. The key
    is the caller's in the first two and comes out of the id in the others, which never fails; the
    model is made of attributes that have the key. Nothing is assumed of the run before, but that it
    registered the schema and no other primary key for the table since. -/
theorem readings_agree (m : Model α) (hhosts : a.Hosts m.schema)
    (hkind : key.kind = m.schema.primaryKey.kind)
    (hlive : lookUp a.documents (recordId m.schema.table key.toText) = .ok doc) :
    let id := recordId m.schema.table key.toText
    let attributes := doc.restore m.keyField key
    let model := m.ofAttributes attributes
    Identity.documentId m.schema.table key = .ok id ∧
      Identity.keyOf m.schema.table m.schema.primaryKey.kind id = .ok key ∧
      attributes.get? m.keyField = some key.toJson ∧
      ((∃ x, model = .ok x) ∨ ∃ message, model = .error (.serialization message)) ∧
      ∃ rev, doc.revision? = some rev ∧
        let remembered := a.revisions.record id rev
        (m.read key).Ends a model remembered ∧
        (m.readAll [key]).Ends a (model.map ([·])) remembered ∧
        (∀ query, a.FindsOnly query doc →
          (m.raw query).Ends a (model.map fun x => .models [x]) remembered) ∧
        (∀ s query groupBy warnings,
          s.plan a.config.queryLimit = .ok (.find query none groupBy, warnings) →
            a.FindsOnly query doc →
              (m.execute s).Ends a (model.map (m.outputOf doc groupBy)) remembered ∧
              (groupBy = none → (m.fetch s).Ends a (model.map ([·])) remembered)) ∧
        ∀ q n query, q.queryFor n = .ok query → q.room n ≠ 0 →
          a.FindsOnly { query with limit := some (q.room n) } doc →
            (m.page n q a).1.1 = model.map (fun x => .models [x]) ∧
            (m.page n q a).2.revisions = remembered := by
  have hid := hhosts.documentId_eq key
  have hkey := Identity.keyOf_of_documentId hid
  rw [hkind] at hkey
  have hunstaged := hhosts.sound.unstaged
  obtain ⟨rev, hkept⟩ := hhosts.keptUnder (lookUp_eq_ok hlive).1
  have hdoc : ∀ b : Adapter, b.revisions = a.revisions → (m.ofDocument doc).Ends b
      (m.ofAttributes (doc.restore m.keyField key))
      (a.revisions.record (recordId m.schema.table key.toText) rev) := by
    intro b hrevisions
    rw [← hrevisions]
    exact m.ofDocument_ends b hid hkind hkept
  refine ⟨hid, hkey, Dict.get?_insert_self _ _ _, m.ofAttributes_cases _, rev, hkept.revision?_eq,
    m.read_ends hhosts hid hlive hkept.revision?_eq,
    m.readAll_ends hhosts hid hlive hkept.revision?_eq, ?_, ?_, ?_⟩
  · intro query hfinds
    exact raw_ends hunstaged hfinds hdoc
  · intro s query groupBy warnings hplan hfinds
    refine ⟨execute_ends hplan hunstaged hfinds hdoc, ?_⟩
    rintro rfl
    exact (execute_ends hplan hunstaged hfinds hdoc).bind_pure fun _ => rfl
  · intro q n query hquery hroom hfinds
    exact page_ends hquery hroom hunstaged hfinds hdoc

/-- Tickets are numbered downwards, from below what 64 bits hold. -/
def ticketSchema : Schema where
  table := "tickets"
  primaryKey := ⟨"no", .bigInt, some {
    startWith := Signed.wrap 128 (-9223372036854775808), incrementBy := Signed.wrap 128 (-1) }⟩

/-- The number of the first ticket. -/
def firstTicket : Key := .bigInt (Signed.wrap 128 (-9223372036854775809))

/-- One ticket is made, which gets its number from the sequence. -/
def ticketOffice : Adapter :=
  runAll ([] ++ .register ticketSchema ::
    [.own (Model.plain ticketSchema [] []) (.create (.obj [("seat", .str "12")]))])
    (ofStore (fresh fun _ _ => 0) {})

/-- The document of the first ticket. -/
def firstTicketDocument : Document := [
  ("??table", .str "tickets"), ("_id", .str "tickets__-9223372036854775809"),
  ("_rev", .str (Revision.text 1 0)), ("no", .str "-9223372036854775809"), ("seat", .str "12")]

theorem readings_agree_ticketOffice :
    let m := Model.plain ticketSchema [] []
    let model := Except.ok (Json.obj [("no", .str "-9223372036854775809"), ("seat", .str "12")])
    let remembered := ticketOffice.revisions.record "tickets__-9223372036854775809"
      (Revision.text 1 0)
    (m.read firstTicket).Ends ticketOffice model remembered ∧
      (m.readAll [firstTicket]).Ends ticketOffice (model.map ([·])) remembered ∧
      (m.fetch (.ofSchema ticketSchema)).Ends ticketOffice (model.map ([·])) remembered := by
  have hhosts : ticketOffice.Hosts ticketSchema := .run _ _ [] _ rfl fun step hmem => by
    rw [List.mem_singleton.mp hmem]
    trivial
  have hplan : (Statement.ofSchema ticketSchema).plan ticketOffice.config.queryLimit =
      .ok (.find { selector := Selector.equals tableField (.str "tickets"), limit := some 250 }
        none none, [.defaultLimit 250]) := rfl
  have hfinds : ticketOffice.FindsOnly
      { selector := Selector.equals tableField (.str "tickets"), limit := some 250 }
      firstTicketDocument := ⟨rfl, _, rfl, by decide +kernel⟩
  have hkind : firstTicket.kind = ticketSchema.primaryKey.kind := rfl
  have hlive : lookUp ticketOffice.documents (recordId "tickets" firstTicket.toText) =
      .ok firstTicketDocument := rfl
  obtain ⟨_, _, _, _, rev, hrev, hread, hreadAll, _, hstatement, _⟩ :=
    readings_agree (Model.plain ticketSchema [] []) hhosts hkind hlive
  cases hrev
  exact ⟨hread, hreadAll, (hstatement _ _ _ _ hplan hfinds).2 rfl⟩

end Model

end DocMapper
