import DocMapper.Adapter.Setup
import DocMapper.Proofs.Adapter.Result
import DocMapper.Proofs.Design.Index

/-!
# Creating indexes

What a run of requests for indexes leaves in a store: what is there stays, and of the requests with
a new name the first is kept. Documents have no part in it.
-/

namespace DocMapper

namespace MemoryStore

/-- The indexes with a request, unless there is one with its name. -/
def withIndex (indexes : Dict IndexRequest) (r : IndexRequest) : Dict IndexRequest :=
  if indexes.contains r.name then indexes else indexes.insert r.name r

variable {s : MemoryStore} {indexes : Dict IndexRequest} {r : IndexRequest}
  {requests : List IndexRequest} {name : String}

/-- The store accepts every index that has a field. -/
theorem perform_createIndex (s : MemoryStore) (hfields : r.index.fields ≠ []) :
    ∃ receipt, s.perform (.createIndex r) =
      (.ok receipt, { s.count .createIndex with indexes := withIndex s.indexes r }) := by
  have hnonempty : ¬r.index.fields.isEmpty = true := by rwa [List.isEmpty_iff]
  have hperform : s.perform (.createIndex r) =
      (s.count .createIndex).effect (.createIndex r) := rfl
  have hindexes : (s.count .createIndex).indexes = s.indexes := rfl
  rw [hperform, effect, addIndex, if_neg hnonempty, hindexes, withIndex]
  by_cases hthere : s.indexes.contains r.name = true
  · rw [if_pos hthere, if_pos hthere]
    exact ⟨_, rfl⟩
  · rw [if_neg hthere, if_neg hthere]
    exact ⟨_, rfl⟩

/-- The first request under a name is kept. -/
theorem get?_withIndex (indexes : Dict IndexRequest) (r : IndexRequest) (name : String) :
    (withIndex indexes r).get? name =
      (indexes.get? name).or (if r.name = name then some r else none) := by
  rw [withIndex]
  by_cases hthere : indexes.contains r.name = true
  · rw [if_pos hthere]
    by_cases hname : r.name = name
    · subst hname
      obtain ⟨q, hq⟩ := Option.isSome_iff_exists.mp hthere
      rw [hq, Option.some_or]
    · rw [if_neg hname, Option.or_none]
  · rw [if_neg hthere]
    by_cases hname : r.name = name
    · subst hname
      rw [if_pos rfl, Dict.get?_insert_self, Option.not_isSome_iff_eq_none.mp hthere,
        Option.none_or]
    · rw [if_neg hname, Option.or_none, Dict.get?_insert_of_ne _ _ hname]

/-- After a run of requests the indexes that were there are as before, and the first request with a
new name is kept under it. -/
theorem get?_foldl_withIndex (indexes : Dict IndexRequest) (requests : List IndexRequest)
    (name : String) : (requests.foldl withIndex indexes).get? name =
      (indexes.get? name).or (requests.find? fun r => r.name = name) := by
  induction requests generalizing indexes with
  | nil => rw [List.find?_nil, Option.or_none]; rfl
  | cons r rest ih =>
    rw [List.foldl_cons, ih, get?_withIndex, List.find?_cons, Option.or_assoc]
    by_cases hname : r.name = name
    · rw [if_pos hname, decide_eq_true hname, Option.some_or]
    · rw [if_neg hname, decide_eq_false hname, Option.none_or]

/-- Where all names are taken, nothing is created. -/
theorem foldl_withIndex_of_contains (hthere : ∀ r ∈ requests, indexes.contains r.name = true) :
    requests.foldl withIndex indexes = indexes := by
  induction requests with
  | nil => rfl
  | cons r rest ih =>
    obtain ⟨hfirst, hrest⟩ := List.forall_mem_cons.mp hthere
    rw [List.foldl_cons, withIndex, if_pos hfirst]
    exact ih hrest

/-- Every requested name is an index afterwards. -/
theorem contains_foldl_withIndex (indexes : Dict IndexRequest) (hmem : r ∈ requests) :
    (requests.foldl withIndex indexes).contains r.name = true := by
  have hsome : (requests.find? fun q => q.name = r.name).isSome = true :=
    List.find?_isSome.mpr ⟨r, hmem, decide_eq_true rfl⟩
  rw [Dict.contains, get?_foldl_withIndex, Option.isSome_or, hsome, Bool.or_true]

/-- Requests for indexes change nothing but indexes. -/
theorem performAll_createIndex (s : MemoryStore)
    (hfields : ∀ r ∈ requests, r.index.fields ≠ []) :
    (s.performAll (requests.map .createIndex)).uncounted =
      { s.uncounted with indexes := requests.foldl withIndex s.indexes } := by
  induction requests generalizing s with
  | nil => rfl
  | cons r rest ih =>
    obtain ⟨hfirst, hrest⟩ := List.forall_mem_cons.mp hfields
    obtain ⟨receipt, hperform⟩ := perform_createIndex s hfirst
    rw [List.map_cons, performAll, List.foldl_cons, hperform, ← performAll, ih _ hrest]
    rfl

/-- Looking documents up changes nothing. -/
theorem performAll_get {α : Type} (s : MemoryStore) (id : α → String) (xs : List α) :
    (s.performAll (xs.map fun x => .get (id x))).uncounted = s.uncounted := by
  induction xs generalizing s with
  | nil => rfl
  | cons x rest ih => exact ih (s.count .get)

/-- A field is covered where an index covers it under its own name. -/
theorem covers_of_get? {field : String} (hget : indexes.get? name = some r)
    (hfield : field ∈ r.index.fieldNames) : covers indexes field = true :=
  List.any_eq_true.mpr ⟨(name, r), Dict.mem_of_get? hget, decide_eq_true hfield⟩

end MemoryStore

namespace Adapter

/-- The adapter after its store has carried out calls. -/
def servedAll (a : Adapter) (calls : List Call) : Adapter :=
  { a with connection := a.connection.after calls }

variable {a b c : Adapter} {α : Type} {r : IndexRequest} {calls later : List Call}

theorem servedAll_nil (a : Adapter) : a.servedAll [] = a := by
  rw [servedAll, Connection.after_nil]

/-- Calls in two stretches are served one behind the other. -/
theorem servedAll_append (a : Adapter) (calls later : List Call) :
    a.servedAll (calls ++ later) = (a.servedAll calls).servedAll later := by
  rw [servedAll, Connection.after_append]
  rfl

theorem Unstaged.servedAll (hunstaged : a.Unstaged) (calls : List Call) :
    (a.servedAll calls).Unstaged := hunstaged

/-- Steps that make one call each and succeed, as long as something holds that they keep, make their
calls one after another. -/
theorem forM_eq_servedAll {f : α → Action PUnit} {call : α → Call} {P : Adapter → Prop}
    {xs : List α} (hstep : ∀ x ∈ xs, ∀ a, P a → f x a = (.ok (), a.servedAll [call x]))
    (hkeep : ∀ x a, P a → P (a.servedAll [call x])) (ha : P a) :
    xs.forM f a = (.ok (), a.servedAll (xs.map call)) := by
  induction xs generalizing a with
  | nil =>
    rw [List.map_nil, servedAll_nil]
    rfl
  | cons x rest ih =>
    obtain ⟨hfirst, hrest⟩ := List.forall_mem_cons.mp hstep
    have hcons : (x :: rest).forM f a = (f x >>= fun _ => rest.forM f) a := rfl
    rw [hcons, bind_of_ok (hfirst a ha), ih hrest (hkeep x a ha), List.map_cons,
      ← servedAll_append, List.singleton_append]

/-- Against the store itself, an index with a field is created by one call. -/
theorem createIndex_eq (hunstaged : a.Unstaged) (hfields : r.index.fields ≠ []) :
    createIndex r a = (.ok (), a.servedAll [.createIndex r]) := by
  obtain ⟨receipt, hperform⟩ := MemoryStore.perform_createIndex a.connection.store hfields
  have hattempt := lift_attempt_eq (.createIndex r) hunstaged
  rw [hperform] at hattempt
  exact bind_of_ok hattempt

/-- Where no answers are staged, every index that models need is asked for. -/
theorem index_eq (schemas : List Schema) (hunstaged : a.Unstaged) :
    index schemas a =
      (.ok (), a.servedAll ((IndexRequest.generate schemas).map .createIndex)) :=
  forM_eq_servedAll (P := Unstaged)
    (fun _ hr _ hunstaged =>
      createIndex_eq hunstaged (IndexRequest.fields_ne_nil_of_mem_generate hr))
    (fun _ _ hunstaged => hunstaged) hunstaged

end Adapter

end DocMapper
