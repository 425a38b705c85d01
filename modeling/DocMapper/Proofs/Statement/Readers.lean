import DocMapper.Proofs.Statement.Limits

/-!
# Readers of a store

A reader runs statements and pages through others, while the store changes. Main statement: no
request for documents goes out without a limit, and neither a statement nor a pass through its pages
fetches more documents than the limit of the statement.
-/

namespace DocMapper

open DocMapper.Action Adapter MemoryStore

/-- A statement that is paged through. -/
structure Paged where
  statement : Statement
  size : UInt64
  pager : Pager
  /-- The number of documents that were fetched since the first page was last asked for. -/
  since : Nat

/-- An adapter with the pagers that were made through it. -/
structure Reader where
  adapter : Adapter
  pagers : List Paged

/-- What a reader does, and what others do to its store in between. -/
inductive Inquiry : Type 1 where
  | execute {α : Type} (m : Model α) (s : Statement)
  | fetch {α : Type} (m : Model α) (s : Statement)
  | aggregate {α : Type} (m : Model α) (s : Statement)
  | paginate (s : Statement) (size : UInt64)
  /-- A page of one of the pagers. -/
  | page {α : Type} (m : Model α) (i n : Nat)
  | next {α : Type} (m : Model α) (i : Nat)
  /-- Others leave the store like this. -/
  | others (store : MemoryStore)

/-- The reader after a page of one of its pagers was asked for. -/
def Reader.turned {α : Type} (r : Reader) (i n : Nat) (p : Paged)
    (outcome : (Except Error (Rows α) × Pager) × Adapter) : Reader :=
  let fetched := r.adapter.fetchedUpTo outcome.2
  { adapter := outcome.2
    pagers := r.pagers.set i
      { p with pager := outcome.1.2, since := (if n = 1 then 0 else p.since) + fetched } }

/-- The reader after an inquiry, whether it succeeds or fails. -/
def Inquiry.run : Inquiry → Reader → Reader
  | .execute m s, r => { r with adapter := (m.execute s r.adapter).2 }
  | .fetch m s, r => { r with adapter := (m.fetch s r.adapter).2 }
  | .aggregate m s, r => { r with adapter := (m.aggregate s r.adapter).2 }
  | .paginate s size, r =>
    match Model.paginate s size r.adapter with
    | (.ok pager, a) => ⟨a, r.pagers ++ [⟨s, size, pager, 0⟩]⟩
    | (.error _, a) => { r with adapter := a }
  | .page m i n, r =>
    match r.pagers[i]? with
    | some p => r.turned i n p (m.page n p.pager r.adapter)
    | none => r
  | .next m i, r =>
    match r.pagers[i]? with
    | some p => r.turned i (p.pager.current + 1) p (m.nextPage p.pager r.adapter)
    | none => r
  | .others store, r =>
    { r with adapter := { r.adapter with connection := { r.adapter.connection with store } } }

/-- The reader after inquiries, one after another. -/
def Inquiry.runAll (inquiries : List Inquiry) (r : Reader) : Reader :=
  inquiries.foldl (fun r inquiry => inquiry.run r) r

/-- The limits that an inquiry may send: those of its statement, or up to the size of pages. -/
def Inquiry.Allows (config : Config) (r : Reader) : Inquiry → UInt64 → Prop
  | .execute _ s, limit | .fetch _ s, limit | .aggregate _ s, limit => s.Allows config limit
  | .page _ i _, limit | .next _ i, limit => ∃ p, r.pagers[i]? = some p ∧ limit ≤ p.size
  | .paginate _ _, _ | .others _, _ => False

/-- The limit that was given for all documents of an inquiry. -/
def Inquiry.limit? : Inquiry → Option UInt64
  | .execute _ s | .fetch _ s | .aggregate _ s => s.last? Clause.limit?
  | _ => none

/-- The pager is for the statement, and counts all that was fetched, up to the limit. -/
structure Paged.Counted (p : Paged) : Prop where
  size : p.pager.size = p.size
  limit : p.pager.limit = p.statement.last? Clause.limit?
  since : p.since ≤ p.pager.fetched
  fetched : ∀ limit, p.pager.limit = some limit → p.pager.fetched ≤ limit.toNat

/-- What holds of a reader all along. -/
structure Reader.Sound (config : Config) (r : Reader) : Prop where
  unstaged : r.adapter.Unstaged
  config : r.adapter.config = config
  pagers : ∀ p ∈ r.pagers, p.Counted
  limits : ∀ query, .find query ∈ r.adapter.connection.log → query.limit ≠ none

variable {config : Config} {r : Reader} {α : Type} {a : Adapter}

/-! ## One step -/

/-- A page leaves room for what was fetched before it and for no more than the size of pages. -/
theorem Pager.room_le {q : Pager} (n : Nat) : q.room n ≤ q.size ∧
    ∀ limit, q.limit = some limit → (q.room n).toNat ≤ limit.toNat - q.before n := by
  rw [UInt64.le_iff_toNat_le, room_toNat]
  refine ⟨nextPage_le _ _ _, ?_⟩
  intro limit hlimit
  rw [hlimit]
  exact Nat.min_le_right _ _

/-- A request for a page is limited to the size of pages, and what is fetched is counted. -/
theorem Paged.Counted.turned {p : Paged} (hcounted : p.Counted) (m : Model α) (n : Nat)
    (hunstaged : a.Unstaged) :
    Bounded (· ≤ p.size) none a (m.page n p.pager a).2 ∧
      Counted { p with
        pager := (m.page n p.pager a).1.2
        since := (if n = 1 then 0 else p.since) + a.fetchedUpTo (m.page n p.pager a).2 } := by
  obtain ⟨hsize, hlimit, hsince, hfetched⟩ := hcounted
  obtain ⟨calls, hconnection, hlimits, hcount⟩ := m.page_fetches n p.pager hunstaged
  obtain ⟨_, hpsize, hplimit⟩ := Pager.task_eq_iff.mp (m.task_page n p.pager a)
  obtain ⟨hroom, hrest⟩ := p.pager.room_le n
  rw [← fetchedUpTo_of_log (congrArg Connection.log hconnection)] at hcount
  have hbefore : (if n = 1 then 0 else p.since) ≤ p.pager.before n := by
    unfold Pager.before
    split <;> omega
  have hsince' : (if n = 1 then 0 else p.since) ≤ p.since := by split <;> omega
  refine ⟨bounded_of_calls hconnection (fun query hmem => ?_) nofun,
    hpsize.trans hsize, hplimit.trans hlimit, ?_, fun limit hmost => ?_⟩
  · exact ⟨_, hlimits query hmem, hsize ▸ hroom⟩
  · rcases hcount with ⟨hnone, hstays⟩ | ⟨hmoves, _⟩
    · simp only [hnone, hstays]
      omega
    · simp only [hmoves]
      omega
  · have hlimited := hplimit.symm.trans hmost
    have hmuch := hfetched limit hlimited
    have hleft := hrest limit hlimited
    rcases hcount with ⟨_, hstays⟩ | ⟨hmoves, hgiven⟩
    · simp only [hstays]
      exact hmuch
    · have hpast : p.pager.before n ≤ limit.toNat := by
        unfold Pager.before
        split <;> omega
      simp only [hmoves]
      omega

theorem Reader.Sound.of_bounded {P : UInt64 → Prop} {most : Option UInt64} {pagers : List Paged}
    (hsound : r.Sound config) (hbounded : Bounded P most r.adapter a)
    (halike : r.adapter.Alike a) (hpagers : ∀ p ∈ pagers, p.Counted) :
    Sound config ⟨a, pagers⟩ := by
  obtain ⟨hstaged, ⟨calls, hlog, hlimits⟩, _⟩ := hbounded
  refine ⟨hstaged.trans hsound.unstaged, halike.config.trans hsound.config, hpagers, ?_⟩
  intro query hmem
  rw [hlog] at hmem
  rcases List.mem_append.mp hmem with hbefore | hsent
  · exact hsound.limits query hbefore
  · obtain ⟨limit, hlimit, _⟩ := hlimits query hsent
    rw [hlimit]
    exact Option.some_ne_none limit

theorem Reader.Sound.turned {i : Nat} {p : Paged} (hsound : r.Sound config)
    (hp : r.pagers[i]? = some p) (m : Model α) (n : Nat) :
    Bounded (fun limit => ∃ p, r.pagers[i]? = some p ∧ limit ≤ p.size) none r.adapter
        (m.page n p.pager r.adapter).2 ∧
      (r.turned i n p (m.page n p.pager r.adapter)).Sound config := by
  obtain ⟨⟨hstaged, ⟨calls, hlog, hlimits⟩, hfetched⟩, hcounted⟩ :=
    (hsound.pagers p (List.mem_of_getElem? hp)).turned m n hsound.unstaged
  have hbounded : Bounded (fun limit => ∃ p, r.pagers[i]? = some p ∧ limit ≤ p.size) none r.adapter
      (m.page n p.pager r.adapter).2 := by
    refine ⟨hstaged, ⟨calls, hlog, fun query hmem => ?_⟩, hfetched⟩
    obtain ⟨limit, hlimit, hle⟩ := hlimits query hmem
    exact ⟨limit, hlimit, p, hp, hle⟩
  refine ⟨hbounded, hsound.of_bounded hbounded ((Operation.page p.pager n).alike_run m r.adapter) ?_⟩
  intro other hmem
  rcases List.mem_or_eq_of_mem_set hmem with hold | rfl
  · exact hsound.pagers other hold
  · exact hcounted

/-- An inquiry sends the limits that it may send, and fetches no more documents than its limit. -/
theorem Inquiry.run_spec (inquiry : Inquiry) (hsound : r.Sound config) :
    Bounded (inquiry.Allows config r) inquiry.limit? r.adapter (inquiry.run r).adapter ∧
      (inquiry.run r).Sound config := by
  have hexecute : ∀ {α : Type} (m : Model α) (s : Statement),
      Bounded (s.Allows config) (s.last? Clause.limit?) r.adapter (m.execute s r.adapter).2 := by
    intro α m s
    rw [← hsound.config]
    exact m.bounded_execute s hsound.unstaged
  cases inquiry with
  | execute m s =>
    exact ⟨hexecute m s,
      hsound.of_bounded (hexecute m s) ((Operation.execute s).alike_run m _) hsound.pagers⟩
  | fetch m s =>
    have hbounded := (hexecute m s).of_connection (m.connection_fetch s)
    exact ⟨hbounded,
      hsound.of_bounded hbounded ((Operation.fetch s).alike_run m _) hsound.pagers⟩
  | aggregate m s =>
    have hbounded := (hexecute m s).of_connection (m.connection_aggregate s)
    exact ⟨hbounded,
      hsound.of_bounded hbounded ((Operation.aggregate s).alike_run m _) hsound.pagers⟩
  | paginate s size =>
    have hstays := Model.paginate_snd s size r.adapter
    rcases hpaginate : Model.paginate s size r.adapter with ⟨e | pager, b⟩
    · rw [hpaginate] at hstays
      cases hstays
      simp only [run, hpaginate]
      exact ⟨bounded_refl _ _ _, hsound⟩
    · rw [hpaginate] at hstays
      cases hstays
      obtain ⟨_, _, _, _, rfl⟩ := Model.exists_query_of_paginate hpaginate
      simp only [run, hpaginate]
      refine ⟨bounded_refl _ _ _, hsound.unstaged, hsound.config, fun p hmem => ?_, hsound.limits⟩
      rcases List.mem_append.mp hmem with hold | hnew
      · exact hsound.pagers p hold
      · cases List.mem_singleton.mp hnew
        exact ⟨rfl, rfl, Nat.le_refl _, fun _ _ => Nat.zero_le _⟩
  | page m i n =>
    cases hp : r.pagers[i]? with
    | none =>
      simp only [run, hp]
      exact ⟨bounded_refl _ _ _, hsound⟩
    | some p =>
      simp only [run, hp]
      exact hsound.turned hp m n
  | next m i =>
    cases hp : r.pagers[i]? with
    | none =>
      simp only [run, hp]
      exact ⟨bounded_refl _ _ _, hsound⟩
    | some p =>
      simp only [run, hp, Model.nextPage_eq]
      exact hsound.turned hp m _
  | others store =>
    have hlog : (run (.others store) r).adapter.connection.log = r.adapter.connection.log ++ [] :=
      (List.append_nil _).symm
    refine ⟨⟨rfl, ⟨[], hlog, fun _ hmem => absurd hmem List.not_mem_nil⟩, nofun⟩, ?_⟩
    exact ⟨hsound.unstaged, hsound.config, hsound.pagers, hsound.limits⟩

/-! ## Runs -/

theorem Inquiry.sound_runAll (inquiries : List Inquiry) (hsound : r.Sound config) :
    (runAll inquiries r).Sound config := by
  induction inquiries generalizing r with
  | nil => exact hsound
  | cons inquiry rest ih => exact ih (inquiry.run_spec hsound).2

/-- A reader with a new adapter. -/
def Reader.start (store : MemoryStore) (config : Config) : Reader := ⟨ofStore store config, []⟩

/-- Over every store, under every configuration and after every run of statements and pages, whatever
    others do to the store: all requests for documents so far had limits, and those of the next
    inquiry have the limit that its sort allows. That is the limit of the statement or the default
    one for rows, at most the size of pages, but one at least, for an aggregate of documents, and at
    most the size of its pages for a pager. No statement fetches more documents than its limit, and
    neither do the pages of a pager since the first one was last asked for, in whatever order they
    are asked for and whether they succeed or fail. -/
theorem Inquiry.bounded_after_run (store : MemoryStore) (config : Config)
    (inquiries : List Inquiry) (inquiry : Inquiry) :
    let r := runAll inquiries (.start store config)
    (∀ query, .find query ∈ r.adapter.connection.log → query.limit ≠ none) ∧
      Bounded (inquiry.Allows config r) inquiry.limit? r.adapter (inquiry.run r).adapter ∧
      ∀ p ∈ r.pagers, ∀ limit, p.statement.last? Clause.limit? = some limit →
        p.since ≤ limit.toNat := by
  intro r
  have hstart : (Reader.start store config).Sound config :=
    ⟨rfl, rfl, List.forall_mem_nil _, fun _ hmem => absurd hmem List.not_mem_nil⟩
  have hsound : r.Sound config := sound_runAll inquiries hstart
  refine ⟨hsound.limits, (inquiry.run_spec hsound).1, fun p hmem limit hlimit => ?_⟩
  obtain ⟨_, hgiven, hsince, hfetched⟩ := hsound.pagers p hmem
  exact Nat.le_trans hsince (hfetched limit (hgiven.trans hlimit))

end DocMapper
