import DocMapper.Proofs.Adapter.Held
import DocMapper.Proofs.Adapter.Indexes
import DocMapper.Proofs.Design.Document

/-!
# Setting up a store

Setting up brings every design document that the registered models need up to date, and leaves other
documents alone. What is up to date is only looked up, so a second run changes nothing.
-/

namespace DocMapper

open DocMapper.Action MemoryStore

namespace DesignDocument

/-- The design document is stored and live, with exactly its views. -/
def Installed (documents : Dict Document) (d : DesignDocument) : Prop :=
  ∃ doc, lookUp documents d.id = .ok doc ∧ (Dict.get? doc "views").bind decodeViews? = some d.views

variable {documents after : Dict Document} {d : DesignDocument} {receipt : WriteReceipt}
  {digest : Option String → Document → UInt64}

/-- Whether a design document is installed is seen from the document under its id. -/
theorem Installed.congr (hinstalled : d.Installed documents)
    (hget : after.get? d.id = documents.get? d.id) : d.Installed after := by
  obtain ⟨doc, hlookUp, hviews⟩ := hinstalled
  refine ⟨doc, ?_, hviews⟩
  rw [lookUp, hget]
  exact hlookUp

theorem id?_fields (d : DesignDocument) : Document.id? d.fields = some d.id := rfl

theorem revision?_fields (d : DesignDocument) : Document.revision? d.fields = d.rev := by
  obtain ⟨id, _ | rev, language, views⟩ := d <;> rfl

/-- A design document is no tombstone. -/
theorem isDeleted_fields (d : DesignDocument) : Document.isDeleted d.fields = false := by
  obtain ⟨id, _ | rev, language, views⟩ := d <;> rfl

theorem get?_views_fields (d : DesignDocument) :
    Dict.get? d.fields "views" = some (.obj (d.views.mapValues ViewDefinition.encode)) := by
  obtain ⟨id, _ | rev, language, views⟩ := d <;> rfl

/-- A design document that was written is installed, and the others are as before. -/
theorem installed_of_put (hput : put digest documents d.fields = .ok (receipt, after)) :
    d.Installed after ∧ ∀ id, d.id ≠ id → after.get? id = documents.get? id := by
  obtain ⟨hid, _, _, rfl⟩ := put_eq_ok hput
  rw [id?_fields, Option.some.injEq] at hid
  rw [← hid]
  refine ⟨⟨Dict.insert d.fields revisionField (.str receipt.rev), ?_, ?_⟩,
    fun id hne => Dict.get?_insert_of_ne _ _ hne⟩
  · have hlive : Document.isDeleted (Dict.insert d.fields revisionField (.str receipt.rev)) =
        false := by
      rw [Document.isDeleted, Dict.get?_insert_of_ne _ _ (by decide), ← Document.isDeleted,
        isDeleted_fields]
    rw [lookUp, Dict.get?_insert_self, stored, isDeleted_fields, if_neg Bool.false_ne_true]
    exact if_neg (by rw [hlive]; exact Bool.false_ne_true)
  · rw [Dict.get?_insert_of_ne _ _ (by decide), get?_views_fields, Option.bind_some,
      decodeViews?_encode]

/-- A generated design document has not been stored yet. -/
theorem rev_of_mem_generate {schemas : List Schema} (hmem : d ∈ generate schemas) :
    d.rev = none := by
  obtain ⟨v, _, rfl⟩ := mem_generate_iff.mp hmem
  rfl

end DesignDocument

open DesignDocument

namespace MemoryStore

/-- Every document and tombstone carries a revision. -/
def Revised (documents : Dict Document) : Prop :=
  ∀ id doc, documents.get? id = some doc → ∃ rev, doc.revision? = some rev

variable {documents after : Dict Document} {doc : Document} {receipt : WriteReceipt}
  {digest : Option String → Document → UInt64}

theorem revised_empty : Revised [] := fun _ _ hget => by cases hget

/-- A put document carries a revision. -/
theorem Revised.put (hrevised : Revised documents)
    (hput : put digest documents doc = .ok (receipt, after)) : Revised after := by
  obtain ⟨_, _, _, rfl⟩ := put_eq_ok hput
  intro id own hget
  by_cases hid : receipt.id = id
  · subst hid
    rw [Dict.get?_insert_self, Option.some.injEq] at hget
    exact ⟨receipt.rev, hget ▸ revision?_stored doc receipt.id receipt.rev⟩
  · rw [Dict.get?_insert_of_ne _ _ hid] at hget
    exact hrevised id own hget

/-- Whatever calls fill a store, its documents carry revisions. -/
theorem Revised.performAll {s : MemoryStore} (hrevised : Revised s.documents) (calls : List Call) :
    Revised (s.performAll calls).documents :=
  performAll_preserves (W := fun _ => True)
    (R := fun before after => Revised before → Revised after) (fun _ hrevised => hrevised)
    (fun hfirst hsecond hrevised => hsecond (hfirst hrevised))
    (fun _ hput hrevised => hrevised.put hput) s calls (fun _ _ _ _ _ => trivial) hrevised

end MemoryStore

namespace Adapter

variable {a b c : Adapter} {d : DesignDocument} {ds : List DesignDocument}

/-! ## One design document -/

/-- The adapter has written documents with some ids at most: the models that it knows, the indexes
and all other documents are as they were. -/
structure Retouches (S : String → Prop) (a b : Adapter) : Prop where
  unstaged : b.Unstaged
  registry_eq : b.registry = a.registry
  indexes_eq : b.connection.store.indexes = a.connection.store.indexes
  get?_eq : ∀ id, ¬S id → b.documents.get? id = a.documents.get? id

/-- The ids that one stretch or the other may touch are the same set. -/
theorem Retouches.trans {S : String → Prop} (hfirst : Retouches S a b) (hsecond : Retouches S b c) :
    Retouches S a c where
  unstaged := hsecond.unstaged
  registry_eq := hsecond.registry_eq.trans hfirst.registry_eq
  indexes_eq := hsecond.indexes_eq.trans hfirst.indexes_eq
  get?_eq id hid := (hsecond.get?_eq id hid).trans (hfirst.get?_eq id hid)

/-- A larger set of ids allows more. -/
theorem Retouches.mono {S T : String → Prop} (hretouches : Retouches S a b)
    (hsubset : ∀ id, S id → T id) : Retouches T a b :=
  { hretouches with get?_eq := fun id hid => hretouches.get?_eq id fun hin => hid (hsubset id hin) }

/-- Looking a document up touches nothing. -/
theorem retouches_get {S : String → Prop} (hunstaged : a.Unstaged) (id : String) :
    Retouches S a (a.servedAll [.get id]) := ⟨hunstaged, rfl, rfl, fun _ _ => rfl⟩

/-- A design document that comes with an accepted revision is written. -/
theorem putDesign_of_accepts (hunstaged : a.Unstaged) (haccepts : Accepts a.documents d.id d.rev) :
    ∃ b, putDesign d a = (.ok (), b) ∧ Retouches (· = d.id) a b ∧ d.Installed b.documents ∧
      (Revised a.documents → Revised b.documents) := by
  have hput : ∃ receipt after,
      put a.connection.store.digest a.documents d.fields = .ok (receipt, after) := by
    obtain ⟨hnone, _⟩ | ⟨id, hid, hput⟩ := put_spec a.connection.store.digest a.documents d.fields
    · cases hnone
    · cases hid
      rw [revision?_fields, isDeleted_fields] at hput
      obtain ⟨hrefuses, _⟩ | ⟨_, hdeleted, _⟩ | ⟨_, _, hok⟩ := hput
      · exact absurd haccepts hrefuses
      · cases hdeleted
      · exact ⟨_, _, hok⟩
  obtain ⟨receipt, after, hput⟩ := hput
  obtain ⟨hanswer, hdocuments⟩ := perform_insert_of_ok hput
  obtain ⟨hinstalled, hothers⟩ := installed_of_put hput
  have hindexes : (a.connection.store.perform (.insert d.fields)).2.indexes =
      a.connection.store.indexes := by
    have hperform : a.connection.store.perform (.insert d.fields) =
        (a.connection.store.count .insert).keepDocuments
          (put a.connection.store.digest a.documents d.fields) := rfl
    rw [hperform, hput]
    rfl
  have hafter : (a.served (.insert d.fields)).documents = after := hdocuments
  refine ⟨a.served (.insert d.fields), bind_of_ok (ask_of_ok hunstaged hanswer),
    ⟨hunstaged, rfl, hindexes, fun id hid => ?_⟩, ?_, fun hrevised => ?_⟩
  · rw [hafter]
    exact hothers id (Ne.symm hid)
  · rw [hafter]
    exact hinstalled
  · rw [hafter]
    exact hrevised.put hput

/-- A design document that is found is written over its own revision, unless it has the views. -/
theorem updateDesign_of_found {doc : Document} (hunstaged : a.Unstaged)
    (hlookUp : lookUp a.documents d.id = .ok doc) : updateDesign d a =
      (if holdsViews doc d.views = true then pure () else
        liftM doc.revision >>= fun rev => putDesign { d with rev := some rev })
          (a.servedAll [.get d.id]) := by
  have hattempt := lift_attempt_eq (.get d.id) hunstaged
  have hanswer : (a.connection.store.perform (.get d.id)).1 = .ok doc := hlookUp
  rw [hanswer] at hattempt
  exact bind_of_ok hattempt

/-- What is up to date is only looked up. -/
theorem updateDesign_of_installed (hunstaged : a.Unstaged) (hinstalled : d.Installed a.documents) :
    updateDesign d a = (.ok (), a.servedAll [.get d.id]) := by
  obtain ⟨doc, hlookUp, hviews⟩ := hinstalled
  have hholds : holdsViews doc d.views = true := decide_eq_true hviews
  rw [updateDesign_of_found hunstaged hlookUp, if_pos hholds]
  rfl

/-- A stale design document is written over its own revision. -/
theorem updateDesign_of_stale {doc : Document} {rev : String} (hunstaged : a.Unstaged)
    (hlookUp : lookUp a.documents d.id = .ok doc) (hstale : ¬holdsViews doc d.views = true)
    (hrev : doc.revision? = some rev) :
    updateDesign d a = putDesign { d with rev := some rev } (a.servedAll [.get d.id]) := by
  have hrevision : doc.revision = .ok rev := by rw [Document.revision, hrev]
  rw [updateDesign_of_found hunstaged hlookUp, if_neg hstale, hrevision, lift_ok_bind]

/-- A missing one is written anew. -/
theorem updateDesign_of_missing {reason : String} (hunstaged : a.Unstaged)
    (hlookUp : lookUp a.documents d.id = .error (.notFound reason)) :
    updateDesign d a = putDesign d (a.servedAll [.get d.id]) := by
  have hattempt := lift_attempt_eq (.get d.id) hunstaged
  have hanswer : (a.connection.store.perform (.get d.id)).1 = .error (.notFound reason) := hlookUp
  rw [hanswer] at hattempt
  exact bind_of_ok hattempt

/-- A stale design document without a revision cannot be replaced. -/
theorem updateDesign_of_unrevised {doc : Document} (hunstaged : a.Unstaged)
    (hlookUp : lookUp a.documents d.id = .ok doc) (hstale : ¬holdsViews doc d.views = true)
    (hrev : doc.revision? = none) :
    updateDesign d a = (.error .documentWithoutRevision, a.servedAll [.get d.id]) := by
  have hrevision : doc.revision = .error .documentWithoutRevision := by
    rw [Document.revision, hrev]
  rw [updateDesign_of_found hunstaged hlookUp, if_neg hstale, hrevision, lift_error_bind]

/-! ## All design documents -/

/-- These design documents are installed, and no other documents were written. -/
structure Installs (ds : List DesignDocument) (a b : Adapter) : Prop where
  retouches : Retouches (fun id => ∃ d ∈ ds, d.id = id) a b
  installed : ∀ d ∈ ds, d.Installed b.documents
  revised : Revised a.documents → Revised b.documents

/-- A stretch that touches the one design document and leaves it installed installs it. -/
theorem Retouches.installs (hretouches : Retouches (· = d.id) a b)
    (hinstalled : d.Installed b.documents) (hrevised : Revised a.documents → Revised b.documents) :
    Installs [d] a b where
  retouches := hretouches.mono fun _ hid => ⟨d, List.mem_singleton_self d, hid.symm⟩
  installed := List.forall_mem_singleton.mpr hinstalled
  revised := hrevised

/-- Design documents with other ids do not undo what is installed. -/
theorem Installs.cons (hfirst : Installs [d] a b) (hrest : Installs ds b c)
    (hapart : ∀ e ∈ ds, d.id ≠ e.id) : Installs (d :: ds) a c where
  retouches := by
    refine (hfirst.retouches.mono ?_).trans (hrest.retouches.mono ?_)
    · rintro id ⟨e, he, hid⟩
      exact ⟨e, List.mem_cons.mpr (Or.inl (List.mem_singleton.mp he)), hid⟩
    · rintro id ⟨e, he, hid⟩
      exact ⟨e, List.mem_cons_of_mem _ he, hid⟩
  installed := by
    refine List.forall_mem_cons.mpr ⟨?_, hrest.installed⟩
    refine (hfirst.installed d (List.mem_singleton_self d)).congr (hrest.retouches.get?_eq _ ?_)
    rintro ⟨e, he, hid⟩
    exact hapart e he hid.symm
  revised hrevised := hrest.revised (hfirst.revised hrevised)

/-- A design document is brought up to date, unless the store keeps a stale one that carries no
revision. -/
theorem updateDesign_spec (hunstaged : a.Unstaged) (hrev : d.rev = none) :
    (∃ b, updateDesign d a = (.ok (), b) ∧ Installs [d] a b) ∨
      (¬Revised a.documents ∧ ∃ e b, updateDesign d a = (.error e, b)) := by
  by_cases hlive : IsLive a.documents d.id
  · obtain ⟨doc, hlookUp⟩ := lookUp_of_isLive hlive
    obtain ⟨hget, _⟩ := lookUp_eq_ok hlookUp
    by_cases hholds : holdsViews doc d.views = true
    · have hinstalled : d.Installed a.documents := ⟨doc, hlookUp, of_decide_eq_true hholds⟩
      exact Or.inl ⟨_, updateDesign_of_installed hunstaged hinstalled,
        (retouches_get hunstaged d.id).installs hinstalled id⟩
    · cases hgiven : doc.revision? with
      | none =>
        refine Or.inr ⟨fun hrevised => ?_, _, _,
          updateDesign_of_unrevised hunstaged hlookUp hholds hgiven⟩
        obtain ⟨rev, hrev⟩ := hrevised d.id doc hget
        rw [hgiven] at hrev
        cases hrev
      | some rev =>
        have haccepts : Accepts a.documents d.id (some rev) :=
          (currentRevision_of_present hget).trans hgiven
        obtain ⟨b, hput, hretouches, hinstalled, hrevised⟩ :=
          putDesign_of_accepts (d := { d with rev := some rev })
            (a := a.servedAll [.get d.id]) hunstaged haccepts
        have htouched : Retouches (· = d.id) a b := (retouches_get hunstaged d.id).trans hretouches
        exact Or.inl ⟨b, (updateDesign_of_stale hunstaged hlookUp hholds hgiven).trans hput,
          htouched.installs hinstalled hrevised⟩
  · obtain ⟨reason, hlookUp⟩ := KeyedMap.lookUp_of_not_isLive hlive
    have haccepts : Accepts a.documents d.id d.rev := by
      rw [hrev]
      exact hlive
    obtain ⟨b, hput, hretouches, hinstalled, hrevised⟩ :=
      putDesign_of_accepts (a := a.servedAll [.get d.id]) hunstaged haccepts
    have htouched : Retouches (· = d.id) a b := (retouches_get hunstaged d.id).trans hretouches
    exact Or.inl ⟨b, (updateDesign_of_missing hunstaged hlookUp).trans hput,
      htouched.installs hinstalled hrevised⟩

/-- Installing designs of distinct ids succeeds, unless some stored document has no revision. -/
theorem forM_updateDesign_spec (hunstaged : a.Unstaged) (hrev : ∀ d ∈ ds, d.rev = none)
    (hapart : ds.Pairwise fun d e => d.id ≠ e.id) :
    (∃ b, ds.forM updateDesign a = (.ok (), b) ∧ Installs ds a b) ∨
      (¬Revised a.documents ∧ ∃ e b, ds.forM updateDesign a = (.error e, b)) := by
  induction ds generalizing a with
  | nil => exact Or.inl ⟨a, rfl, ⟨hunstaged, rfl, rfl, fun _ _ => rfl⟩, List.forall_mem_nil _, id⟩
  | cons d rest ih =>
    obtain ⟨hhead, hrest⟩ := List.forall_mem_cons.mp hrev
    obtain ⟨hfirst, hlater⟩ := List.pairwise_cons.mp hapart
    have hcons : (d :: rest).forM updateDesign a =
        (updateDesign d >>= fun _ => rest.forM updateDesign) a := rfl
    rw [hcons]
    obtain ⟨b, hupdate, hinstalls⟩ | ⟨hunrevised, e, b, hupdate⟩ :=
      updateDesign_spec hunstaged hhead
    · rw [bind_of_ok hupdate]
      -- Later documents have other ids, so this one stays installed.
      obtain ⟨c, hrun, hothers⟩ | ⟨hunrevised, herror⟩ :=
        ih hinstalls.retouches.unstaged hrest hlater
      · exact Or.inl ⟨c, hrun, hinstalls.cons hothers hfirst⟩
      · exact Or.inr ⟨fun hrevised => hunrevised (hinstalls.revised hrevised), herror⟩
    · exact Or.inr ⟨hunrevised, e, b, bind_of_error hupdate⟩

/-! ## Setting up -/

/-- The requests for the indexes that the registered models need. -/
def indexCalls (a : Adapter) : List Call := (IndexRequest.generate a.schemas).map .createIndex

/-- What setting up leaves: all indexes and design documents that the registered models need. -/
structure SetUp (a b : Adapter) : Prop where
  unstaged : b.Unstaged
  registry_eq : b.registry = a.registry
  indexes_eq : b.connection.store.indexes =
    (IndexRequest.generate a.schemas).foldl withIndex a.connection.store.indexes
  installed : ∀ d ∈ DesignDocument.generate a.schemas, d.Installed b.documents
  get?_eq : ∀ id, (∀ d ∈ DesignDocument.generate a.schemas, d.id ≠ id) →
    b.documents.get? id = a.documents.get? id

/-- Setting up creates the indexes and then installs the designs. -/
theorem setUp_eq (hunstaged : a.Unstaged) : setUp a =
    (DesignDocument.generate a.schemas).forM updateDesign (a.servedAll a.indexCalls) := by
  have hget : setUp a =
      (index a.schemas >>= fun _ => (DesignDocument.generate a.schemas).forM updateDesign) a := rfl
  rw [hget, bind_of_ok (index_eq a.schemas hunstaged)]
  rfl

/-- Apart from its counts, the store differs in its indexes. -/
theorem uncounted_indexCalls (a : Adapter) : (a.servedAll a.indexCalls).connection.store.uncounted =
    { a.connection.store.uncounted with
      indexes := (IndexRequest.generate a.schemas).foldl withIndex a.connection.store.indexes } :=
  performAll_createIndex _ fun _ => IndexRequest.fields_ne_nil_of_mem_generate

theorem documents_indexCalls (a : Adapter) :
    (a.servedAll a.indexCalls).documents = a.documents := by
  have hdocuments := congrArg MemoryStore.documents (uncounted_indexCalls a)
  exact hdocuments

theorem indexes_indexCalls (a : Adapter) : (a.servedAll a.indexCalls).connection.store.indexes =
    (IndexRequest.generate a.schemas).foldl withIndex a.connection.store.indexes := by
  have hindexes := congrArg MemoryStore.indexes (uncounted_indexCalls a)
  exact hindexes

/-- Setting up succeeds, unless the store keeps documents that carry no revision. -/
theorem setUp_spec (hunstaged : a.Unstaged) : (∃ b, setUp a = (.ok (), b) ∧ SetUp a b) ∨
    (¬Revised a.documents ∧ ∃ e b, setUp a = (.error e, b)) := by
  rw [setUp_eq hunstaged, ← documents_indexCalls a]
  refine (forM_updateDesign_spec (hunstaged.servedAll _) (fun _ => rev_of_mem_generate)
    (ids_apart_generate a.schemas)).imp_left ?_
  rintro ⟨b, hrun, hinstalls⟩
  refine ⟨b, hrun, hinstalls.retouches.unstaged, hinstalls.retouches.registry_eq,
    hinstalls.retouches.indexes_eq.trans (indexes_indexCalls a), hinstalls.installed,
    fun id habsent => ?_⟩
  rw [← documents_indexCalls a]
  refine hinstalls.retouches.get?_eq id ?_
  rintro ⟨d, hd, hid⟩
  exact habsent d hd hid

/-- A setup that succeeds has asked for every index and installed every design document. -/
theorem setUp_eq_ok (hunstaged : a.Unstaged) (hsetUp : setUp a = (.ok (), b)) : SetUp a b := by
  obtain ⟨c, hok, hdone⟩ | ⟨_, e, c, herror⟩ := setUp_spec hunstaged
  · rw [hsetUp] at hok
    cases hok
    exact hdone
  · rw [hsetUp] at herror
    cases herror

theorem SetUp.schemas_eq (hdone : SetUp a b) : b.schemas = a.schemas := by
  rw [schemas, hdone.registry_eq, ← schemas]

/-- All names of the indexes that are needed are taken then. -/
theorem SetUp.contains_index (hdone : SetUp a b) :
    ∀ r ∈ IndexRequest.generate a.schemas,
      b.connection.store.indexes.contains r.name = true := by
  intro r hr
  rw [hdone.indexes_eq]
  exact contains_foldl_withIndex _ hr

/-- Where setting up succeeds, every design document is stored as it is generated. A second run
succeeds: it asks for the indexes, of which none is created, and looks the design documents up. The
store is left as it is but for the count of calls. -/
theorem setUp_idempotent (hunstaged : a.Unstaged) (hsetUp : setUp a = (.ok (), b)) :
    let calls := a.indexCalls ++ (DesignDocument.generate a.schemas).map fun d => .get d.id
    (∀ d ∈ DesignDocument.generate a.schemas, d.Installed b.documents) ∧
      setUp b = (.ok (), b.servedAll calls) ∧
      (b.servedAll calls).connection.store.uncounted = b.connection.store.uncounted := by
  have hdone := setUp_eq_ok hunstaged hsetUp
  have hschemas := hdone.schemas_eq
  have hcalls : b.indexCalls = a.indexCalls := by rw [indexCalls, hschemas, ← indexCalls]
  have huncounted := uncounted_indexCalls b
  rw [hschemas, foldl_withIndex_of_contains hdone.contains_index, hcalls] at huncounted
  refine ⟨hdone.installed, ?_, ?_⟩
  · have hdocuments := documents_indexCalls b
    rw [setUp_eq hdone.unstaged, hschemas, servedAll_append, ← hcalls]
    -- The second run only looks up, so each document is found as the first run left it.
    refine forM_eq_servedAll (P := fun c => c.Unstaged ∧ c.documents = b.documents) ?_ ?_
      ⟨hdone.unstaged, hdocuments⟩
    · rintro d hd c ⟨hunstaged, hsame⟩
      refine updateDesign_of_installed hunstaged ?_
      rw [hsame]
      exact hdone.installed d hd
    · exact fun _ _ => id
  · rw [servedAll_append]
    exact (performAll_get _ _ _).trans huncounted

/-- An adapter with an empty store that knows one model. -/
def knowing (schema : Schema) : Adapter :=
  { connection := { store := fresh fun _ _ => 0 }, registry := [(schema.table, schema)] }

/-- An adapter that knows a table with two views. Its store keeps the design document of one with no
view in it, that of the other deleted, and a foreign one. -/
def outdated : Adapter :=
  { connection := { store := (fresh fun _ _ => 0).performAll [
      .insert [("_id", .str "_design/items__items__size__count__view__ddoc"), ("views", .obj [])],
      .insert [("_id", .str "_design/late"), ("views", .obj [])],
      .destroy "_design/late" (Revision.text 1 0),
      .insert [("_id", .str "_design/other"), ("language", .str "erlang")]] }
    registry := [("items", {
      table := "items"
      primaryKey := ⟨"id", .text, none⟩
      views := [{ kind := .count, attr := "size" },
        { kind := .sum, attr := "size", ddoc := some "late" }] })] }

theorem setUp_idempotent_outdated : outdated.Unstaged ∧ ∃ b, setUp outdated = (.ok (), b) ∧
    let calls := outdated.indexCalls ++
      (DesignDocument.generate outdated.schemas).map fun d => .get d.id
    (∀ d ∈ DesignDocument.generate outdated.schemas, d.Installed b.documents) ∧
      setUp b = (.ok (), b.servedAll calls) ∧
      (b.servedAll calls).connection.store.uncounted = b.connection.store.uncounted := by
  refine ⟨rfl, ?_⟩
  obtain ⟨b, hsetUp, _⟩ | ⟨hunrevised, _⟩ := setUp_spec (a := outdated) rfl
  · exact ⟨b, hsetUp, setUp_idempotent rfl hsetUp⟩
  · exact absurd (revised_empty.performAll (s := fresh fun _ _ => 0) _) hunrevised

end Adapter

end DocMapper
