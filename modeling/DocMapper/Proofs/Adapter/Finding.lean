import DocMapper.Proofs.Adapter.Footprint
import DocMapper.Proofs.Adapter.Service
import DocMapper.Proofs.Store.Find

/-!
# Finding documents through an adapter

An adapter finds the documents that a query matches, slice by slice, as long as nobody writes.
-/

namespace DocMapper.Adapter

open MemoryStore

/-- The adapter stages no answers and its store has an index for the order of the query, which
    matches these documents. There are not more of them than 64 bits can count. -/
structure Finds (q : Query) (hits : List Document) (a : Adapter) : Prop where
  unstaged : a.Unstaged
  covers : CoversSort a.connection.store.indexes q.sort
  found : found a.documents q = .ok hits
  fits : hits.length < UInt64.size

variable {a : Adapter} {q : Query} {hits : List Document} {first limit : UInt64}

/-- The action answers what the store answers. -/
theorem find_of_answer {answer : FindAnswer} (hunstaged : a.Unstaged)
    (hanswer : a.connection.store.answerQuery q = .ok answer) :
    Adapter.find q a = (.ok answer, a.served (.find q)) :=
  ask_of_ok hunstaged hanswer

/-- Only the selector and the order of a query decide what it matches. -/
theorem Finds.congr {other : Query} (hfinds : Finds q hits a)
    (hselector : other.selector = q.selector) (hsort : other.sort = q.sort) :
    Finds other hits a := by
  refine ⟨hfinds.unstaged, ?_, ?_, hfinds.fits⟩
  · rw [hsort]
    exact hfinds.covers
  · have hsame : MemoryStore.found a.documents other = MemoryStore.found a.documents q := by
      rw [MemoryStore.found, hselector, hsort, MemoryStore.found]
    rw [hsame]
    exact hfinds.found

/-- Only the connection of an adapter decides what it finds. -/
theorem Finds.of_connection {b : Adapter} (hfinds : Finds q hits a)
    (hconnection : b.connection = a.connection) : Finds q hits b := by
  obtain ⟨hunstaged, hcovers, hfound, hfits⟩ := hfinds
  rw [Unstaged, ← hconnection] at hunstaged
  rw [documents, ← hconnection] at hfound
  rw [← hconnection] at hcovers
  exact ⟨hunstaged, hcovers, hfound, hfits⟩

/-- Asking changes nothing that a query could find. -/
theorem Finds.served_find (hfinds : Finds q hits a) (asked : Query) :
    Finds q hits (a.served (.find asked)) :=
  ⟨hfinds.unstaged, hfinds.covers, hfinds.found, hfinds.fits⟩

/-- Asked from a position on, the store answers with the slice behind it, and the bookmark is the
    position behind the slice. -/
theorem Finds.ask_find (hfinds : Finds q hits a) (hstart : start q = .ok first)
    (hlimit : q.limit = some limit) :
    ∃ (answer : FindAnswer) (next : UInt64), ask none (.find q) a = (.ok answer, a.served (.find q)) ∧
      answer.docs = ((hits.drop first.toNat).take limit.toNat).map (project q.fields) ∧
      answer.bookmark = some (bookmarkAt next.toNat) ∧
      next.toNat = first.toNat + answer.docs.length := by
  obtain ⟨answer, hanswer, hdocs, hbookmark⟩ :=
    answerQuery_of_found hfinds.covers hfinds.found hstart
  rw [hlimit, Option.getD_some] at hdocs
  have hend : first.toNat + answer.docs.length < UInt64.size := by
    rw [hdocs, List.length_map]
    exact end_of_slice_lt hfinds.fits first limit.toNat
  have hnext := UInt64.toNat_ofNat_of_lt' hend
  exact ⟨answer, _, ask_of_ok hfinds.unstaged hanswer, hdocs, by rw [hbookmark, hnext], hnext⟩

end DocMapper.Adapter
