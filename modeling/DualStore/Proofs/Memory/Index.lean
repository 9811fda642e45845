import DualStore.Memory.SearchIndex

/-!
Contract: the documents of a search index in memory, looked up by their ids.

Owns:
- the document of an id after each operation: putting a document replaces the one of its id,
  erasing an id leaves no document of it, and writing author fields over changes no id;
- operations made again, which change no document;
- the answer of an operation that may fail: it leaves the documents alone, or it is carried out.

Does not own: which operations an event leads to.
-/

namespace DualStore.Memory.SearchIndex

variable {index : SearchIndex}

section Lookup

variable {id : String}

theorem get?_congr {other : SearchIndex} (same : other.documents = index.documents) (id : String) :
    other.get? id = index.get? id := by
  rw [get?, get?, same]

private theorem find?_putIn (document : IndexDocument) (documents : List IndexDocument) :
    (putIn document documents).find? (·.id == id) =
      if document.id = id then some document else documents.find? (·.id == id) := by
  induction documents with
  | nil =>
      by_cases same : document.id = id
      · simp [putIn, same]
      · simp [putIn, same]
  | cons d documents inductionHypothesis =>
      by_cases replaced : d.id = document.id
      · by_cases same : document.id = id
        · simp [putIn, replaced, same]
        · simp [putIn, replaced, same]
      · have kept : (d.id == document.id) = false := by simpa using replaced
        rw [putIn, kept]
        by_cases found : d.id = id
        · have other : ¬document.id = id := fun equal => replaced (found.trans equal.symm)
          simp [found, other]
        · have passed : (d.id == id) = false := by simpa using found
          simpa [passed] using inductionHypothesis

/-- A document that is put again changes nothing. -/
theorem putIn_putIn (document : IndexDocument) (documents : List IndexDocument) :
    putIn document (putIn document documents) = putIn document documents := by
  induction documents with
  | nil => simp [putIn]
  | cons d documents inductionHypothesis =>
      by_cases replaced : d.id = document.id
      · simp [putIn, replaced]
      · simp [putIn, replaced, inductionHypothesis]

/-- A document that is put stands under its id; other ids hold what they held. -/
theorem get?_put (document : IndexDocument) :
    (index.put document).get? id = if document.id = id then some document else index.get? id :=
  find?_putIn document index.documents

/-- An id that is erased holds nothing; other ids hold what they held. -/
theorem get?_erase (erased : String) :
    (index.erase erased).get? id = if erased = id then none else index.get? id := by
  unfold get? erase
  rw [List.find?_filter]
  by_cases same : erased = id
  · subst same
    rw [if_pos rfl, List.find?_eq_none]
    intro d _
    by_cases found : d.id = erased <;> simp [found]
  · rw [if_neg same]
    congr 1
    funext d
    by_cases found : d.id = id
    · have kept : ¬id = erased := fun equal => same equal.symm
      simp [found, kept]
    · simp [found]

def overwritten (userId : Int64) (update : AuthorUpdate) (d : IndexDocument) : IndexDocument :=
  if d.userId = userId then update.apply d else d

@[simp] theorem id_overwritten (userId : Int64) (update : AuthorUpdate) (d : IndexDocument) :
    (overwritten userId update d).id = d.id := by
  unfold overwritten
  split <;> rfl

@[simp] theorem userId_overwritten (userId : Int64) (update : AuthorUpdate) (d : IndexDocument) :
    (overwritten userId update d).userId = d.userId := by
  unfold overwritten
  split <;> rfl

theorem overwritten_of_ne {userId : Int64} {d : IndexDocument} (other : d.userId ≠ userId)
    (update : AuthorUpdate) : overwritten userId update d = d := if_neg other

/-- Author fields that are written again change nothing. -/
theorem overwritten_overwritten (userId : Int64) (update : AuthorUpdate) (d : IndexDocument) :
    overwritten userId update (overwritten userId update d) = overwritten userId update d := by
  obtain ⟨nickname, avatar⟩ := update
  by_cases concerned : d.userId = userId
  · cases nickname <;> cases avatar <;> simp [overwritten, concerned, AuthorUpdate.apply]
  · simp [overwritten, concerned]

theorem get?_overwriteAuthor (userId : Int64) (update : AuthorUpdate) :
    (index.overwriteAuthor userId update).get? id =
      (index.get? id).map (overwritten userId update) := by
  change (index.documents.map (overwritten userId update)).find? _ = _
  rw [List.find?_map]
  congr 1
  exact congrArg (List.find? · _) (funext fun d => by simp)

end Lookup

section Answers

variable {α : Type} (operate : SearchIndex → α × SearchIndex)

def counted (index : SearchIndex) : SearchIndex := { index with calls := index.calls + 1 }

/-- An operation on an index that still has calls to fail leaves the documents alone. -/
theorem entered_failing {failures : Nat} (failing : index.failures = failures + 1) :
    index.entered operate = (.error overloaded, { index.counted with failures }) := by
  have refused : index.enter = (.error overloaded, { index.counted with failures }) := by
    obtain ⟨documents, remaining, calls⟩ := index
    subst failing
    rfl
  unfold entered
  rw [refused]

/-- An operation on an index that has no calls to fail is carried out. -/
theorem entered_up (up : index.failures = 0) :
    index.entered operate = (.ok (operate index.counted).1, (operate index.counted).2) := by
  have allowed : index.enter = (.ok (), index.counted) := by
    obtain ⟨documents, remaining, calls⟩ := index
    subst up
    rfl
  unfold entered
  rw [allowed]

/-- An operation fails and leaves the documents alone, or it is carried out. -/
theorem entered_cases (index : SearchIndex) :
    (∃ error, (index.entered operate).1 = .error error ∧
      (index.entered operate).2.documents = index.documents) ∨
    index.entered operate = (.ok (operate index.counted).1, (operate index.counted).2) := by
  cases remaining : index.failures with
  | zero => exact Or.inr (entered_up operate remaining)
  | succ failures =>
      left
      rw [entered_failing operate remaining]
      exact ⟨overloaded, rfl, rfl⟩

end Answers

end DualStore.Memory.SearchIndex
