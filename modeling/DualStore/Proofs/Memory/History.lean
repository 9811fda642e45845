import DualStore.Memory.DocumentStore

/-!
Contract: the search history in memory, seen through what is kept under each user and keyword.

Owns:
- the order of instants;
- the record of a user and a keyword, and what one write leaves under every key;
- the record that is left by writes at some times: it begins with the first of them unless there was
  one before, and was changed last by the last one;
- when writes at times that do not decrease leave a record that was not changed before it began.

Does not own: which deliveries write, and what the clock shows.
-/

namespace DualStore

namespace Time

/-- Instants are ordered by their seconds, then within the second. -/
instance : LE Instant :=
  ⟨fun s t => s.seconds < t.seconds ∨ s.seconds = t.seconds ∧ s.nanos ≤ t.nanos⟩

theorem Instant.le_iff {s t : Instant} :
    s ≤ t ↔ s.seconds < t.seconds ∨ s.seconds = t.seconds ∧ s.nanos ≤ t.nanos := Iff.rfl

theorem Instant.le_refl (t : Instant) : t ≤ t := by
  rw [le_iff]
  omega

theorem Instant.le_trans {r s t : Instant} (first : r ≤ s) (second : s ≤ t) : r ≤ t := by
  rw [le_iff] at first second ⊢
  omega

end Time

namespace Memory

open DualStore.Time

/-- What a record of the history is kept under: the keyword counts as it was typed. -/
@[ext]
structure QueryKey where
  userId : Int64
  keyword : String
deriving DecidableEq, Repr

def HistoryRecord.key (record : HistoryRecord) : QueryKey := ⟨record.userId, record.keyword⟩

/-- A write to the history, and the time it was told. -/
structure QueryWrite where
  key : QueryKey
  time : ZonedTime
deriving DecidableEq, Repr

namespace DocumentStore

/-- The record of a user and a keyword. -/
def queried? (store : DocumentStore) (key : QueryKey) : Option HistoryRecord :=
  store.history.find? fun record => record.key = key

def write (write : QueryWrite) (history : List HistoryRecord) : List HistoryRecord :=
  recordQuery write.key.userId write.key.keyword write.time history

end DocumentStore

/-- The record of a key after writes at some times, in their order. -/
def recordAfter (key : QueryKey) (before : Option HistoryRecord) :
    List ZonedTime → Option HistoryRecord
  | [] => before
  | first :: later =>
      let begun := before.getD ⟨key.userId, key.keyword, first, first⟩
      some { begun with updatedAt := later.getLastD first }

/-- A record that was not changed before it began. -/
def Ordered (record : Option HistoryRecord) : Prop :=
  ∀ r ∈ record, r.createdAt.instant ≤ r.updatedAt.instant

/-- The times of the writes under a key. -/
def timesOf (key : QueryKey) (writes : List QueryWrite) : List ZonedTime :=
  (writes.filter fun write => write.key = key).map (·.time)

section Records

variable {key : QueryKey} {before : Option HistoryRecord}

theorem timesOf_concat (writes : List QueryWrite) (write : QueryWrite) :
    timesOf key (writes ++ [write]) =
      timesOf key writes ++ if write.key = key then [write.time] else [] := by
  unfold timesOf
  split <;> simp [*]

theorem recordAfter_concat (times : List ZonedTime) (time : ZonedTime) :
    recordAfter key before (times ++ [time]) =
      recordAfter key (recordAfter key before times) [time] := by
  cases times with
  | nil => rfl
  | cons first later => simp [recordAfter]

theorem isSome_recordAfter (times : List ZonedTime) :
    (recordAfter key before times).isSome = true ↔ before.isSome = true ∨ times ≠ [] := by
  cases times with
  | nil => simp [recordAfter]
  | cons first later => simp [recordAfter]

/-- Writes whose times do not decrease leave a record that was in order in order exactly if the last
of them is not before the beginning of the record that was there. -/
theorem ordered_recordAfter_iff {times : List ZonedTime} (ordered : Ordered before)
    (increasing : times.Pairwise fun first second => first.instant ≤ second.instant) :
    Ordered (recordAfter key before times) ↔
      ∀ r ∈ before, ∀ time ∈ times.getLast?, r.createdAt.instant ≤ time.instant := by
  cases times with
  | nil => simp [recordAfter, ordered]
  | cons first later =>
      have isLast : (first :: later).getLast? = some (later.getLastD first) := by
        rw [List.getLast?_cons, List.getLastD_eq_getLast?]
      rw [isLast]
      cases before with
      | some begun => simp [recordAfter, Ordered]
      | none =>
          have fromFirst : first.instant ≤ (later.getLastD first).instant := by
            rcases List.mem_cons.mp (List.mem_of_getLast? isLast) with same | behind
            · rw [same]
              exact Instant.le_refl _
            · exact List.rel_of_pairwise_cons increasing behind
          have inOrder : Ordered (recordAfter key none (first :: later)) := by
            intro r member
            cases member
            exact fromFirst
          exact iff_of_true inOrder (by simp)

/-- A write leaves every other key alone. -/
theorem find?_write (history : List HistoryRecord) (write : QueryWrite) :
    (DocumentStore.write write history).find? (fun record => record.key = key) =
      recordAfter key (history.find? fun record => record.key = key)
        (if write.key = key then [write.time] else []) := by
  obtain ⟨written, now⟩ := write
  unfold DocumentStore.write
  dsimp only
  induction history with
  | nil =>
      rw [DocumentStore.recordQuery]
      by_cases same : written = key
      · subst same
        simp [recordAfter, HistoryRecord.key]
      · simp [recordAfter, HistoryRecord.key, same]
  | cons record rest inductionHypothesis =>
      have isOwn : (record.userId = written.userId ∧ record.keyword = written.keyword) ↔
          record.key = written := by
        simp [HistoryRecord.key, QueryKey.ext_iff]
      rw [DocumentStore.recordQuery]
      by_cases own : record.key = written
      · subst own
        have kept : HistoryRecord.key { record with updatedAt := now } = record.key := rfl
        rw [if_pos (isOwn.mpr rfl)]
        by_cases same : record.key = key
        · simp [kept, same, recordAfter]
        · simp [kept, same, recordAfter]
      · rw [if_neg (mt isOwn.mp own), List.find?_cons, List.find?_cons, inductionHypothesis]
        by_cases found : record.key = key
        · have other : ¬written = key := fun same => own (found.trans same.symm)
          simp [found, other, recordAfter]
        · simp [found]

end Records

end Memory

end DualStore
