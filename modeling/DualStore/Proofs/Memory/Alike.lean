import DualStore.Memory.World
import DualStore.Proofs.Memory.Document
import Mathlib.Data.List.Forall2

/-!
Contract: documents, document stores and worlds that are alike as maps.

Owns:
- documents that hold the same under every key: setting texts keeps them alike, setting texts again
  changes nothing, and texts of different keys can be set in any order;
- stores with the same documents in the same order, up to that, and the same in everything else but
  the log of operations;
- worlds with such stores and the same index.

Does not own: what an event does to a document.
-/

namespace DualStore.Memory

namespace Document

/-- Two documents hold the same under every key. -/
def Alike (d other : Document) : Prop := d.get? = other.get?

section Alike

variable {d other : Document}

theorem Alike.names (alike : d.Alike other) (field : String) (userId : Int64) :
    d.names field userId = other.names field userId := by
  rw [Document.names, Document.names, show d.get? = other.get? from alike]

theorem Alike.setTexts (alike : d.Alike other) (updates : List (String × String)) :
    (d.setTexts updates).Alike (other.setTexts updates) := by
  funext key
  rw [get?_setTexts, get?_setTexts, show d.get? = other.get? from alike]

/-- Texts that are set again change nothing. -/
theorem alike_setTexts_setTexts (updates : List (String × String)) (d : Document) :
    ((d.setTexts updates).setTexts updates).Alike (d.setTexts updates) := by
  funext key
  rw [get?_setTexts, get?_setTexts, ← Option.or_assoc, Option.or_self]

/-- Texts of different keys can be set in any order. -/
theorem alike_setTexts_comm {first second : List (String × String)}
    (disjoint : ∀ key ∈ first.map (·.1), key ∉ second.map (·.1)) (d : Document) :
    ((d.setTexts first).setTexts second).Alike ((d.setTexts second).setTexts first) := by
  funext key
  by_cases written : key ∈ first.map (·.1)
  · have untouched := disjoint key written
    rw [get?_setTexts_of_not_mem untouched, get?_setTexts, get?_setTexts first,
      get?_setTexts_of_not_mem untouched]
  · rw [get?_setTexts, get?_setTexts_of_not_mem written, get?_setTexts_of_not_mem written,
      get?_setTexts]

/-- Lists of documents that are alike one by one are the same lists of maps. -/
theorem forall₂_alike_iff {documents others : List Document} :
    List.Forall₂ Alike documents others ↔
      documents.map Document.get? = others.map Document.get? := by
  rw [← List.forall₂_eq_eq_eq, List.forall₂_map_left_iff, List.forall₂_map_right_iff]
  rfl

end Alike

end Document

/-- Two stores hold the same documents in the same order, as maps from keys to values, and agree in
all else but the log of operations. -/
structure DocumentStore.Alike (store other : DocumentStore) : Prop where
  documents : ∀ collection,
    (store.documents collection).map Document.get? = (other.documents collection).map Document.get?
  auditLog : store.auditLog = other.auditLog
  history : store.history = other.history
  isDown : ∀ collection, store.isDown collection = other.isDown collection

namespace DocumentStore.Alike

variable {store other : DocumentStore}

theorem refl (store : DocumentStore) : store.Alike store := ⟨fun _ => rfl, rfl, rfl, fun _ => rfl⟩

theorem symm (alike : store.Alike other) : other.Alike store where
  documents := fun collection => (alike.documents collection).symm
  auditLog := alike.auditLog.symm
  history := alike.history.symm
  isDown := fun collection => (alike.isDown collection).symm

theorem trans {third : DocumentStore} (alike : store.Alike other) (again : other.Alike third) :
    store.Alike third where
  documents := fun collection => (alike.documents collection).trans (again.documents collection)
  auditLog := alike.auditLog.trans again.auditLog
  history := alike.history.trans again.history
  isDown := fun collection => (alike.isDown collection).trans (again.isDown collection)

end DocumentStore.Alike

/-- Two worlds with stores that are alike and the same index. -/
structure World.Alike (world other : World) : Prop where
  store : world.store.Alike other.store
  index : world.index = other.index

theorem World.alike_equivalence : Equivalence World.Alike where
  refl := fun world => ⟨.refl world.store, rfl⟩
  symm := fun alike => ⟨alike.store.symm, alike.index.symm⟩
  trans := fun alike again => ⟨alike.store.trans again.store, alike.index.trans again.index⟩

end DualStore.Memory
