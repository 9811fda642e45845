import DualStore.Memory.Document

/-!
Contract: what setting keys of a stored document leaves as it is.

Owns:
- reading a key after one key, or several keys, have been set; keys that were there keep their
  order;
- the parts of a document that follow from single keys: which user a field holds, and whether the
  record that the document describes may be indexed.

Does not own: the collections in which documents stand.
-/

namespace DualStore.Memory.Document

open DualStore.Json

section Keys

variable {d : Document} {key other : String} {value : Tree}

private theorem find?_setIn (fields : List (String × Tree)) :
    ((setIn key value fields).find? (·.1 == other)).map (·.2) =
      if other = key then some value else (fields.find? (·.1 == other)).map (·.2) := by
  induction fields with
  | nil =>
      by_cases same : key = other
      · simp [setIn, same]
      · have distinct : other ≠ key := fun equal => same equal.symm
        simp [setIn, same, distinct]
  | cons field fields inductionHypothesis =>
      obtain ⟨k, v⟩ := field
      by_cases found : k = key
      · subst found
        by_cases same : k = other
        · simp [setIn, same]
        · have distinct : other ≠ k := fun equal => same equal.symm
          simp [setIn, same, distinct]
      · have passed : (k == key) = false := by simpa using found
        by_cases same : k = other
        · subst same
          simp [setIn, found]
        · have skipped : (k == other) = false := by simpa using same
          rw [setIn, passed]
          simpa [skipped] using inductionHypothesis

/-- A key that has been set holds its new value; any other key holds what it held. -/
theorem get?_set : (d.set key value).get? other = if other = key then some value else d.get? other :=
  find?_setIn d.fields

theorem get?_set_of_ne (distinct : other ≠ key) : (d.set key value).get? other = d.get? other := by
  rw [get?_set, if_neg distinct]

/-- A field holds one user at most. -/
theorem eq_of_names {userId user : Int64} (named : d.names key userId = true)
    (also : d.names key user = true) : userId = user := by
  have first : (d.get? key).bind Tree.int64? = some userId := by simpa [names] using named
  have second : (d.get? key).bind Tree.int64? = some user := by simpa [names] using also
  exact Option.some.inj (first.symm.trans second)

private theorem keys_prefix_setIn (fields : List (String × Tree)) :
    fields.map (·.1) <+: (setIn key value fields).map (·.1) := by
  induction fields with
  | nil => exact List.nil_prefix
  | cons field fields inductionHypothesis =>
      rw [setIn]
      split
      · exact List.prefix_rfl
      · exact List.prefix_cons_inj _ |>.mpr inductionHypothesis

end Keys

section Texts

variable {updates : List (String × String)} {key : String}

/-- Keys that are not among the updates hold what they held. -/
theorem get?_setTexts_of_not_mem (untouched : key ∉ updates.map (·.1)) (d : Document) :
    (d.setTexts updates).get? key = d.get? key := by
  induction updates generalizing d with
  | nil => rfl
  | cons update updates inductionHypothesis =>
      simp only [List.map_cons, List.mem_cons, not_or] at untouched
      change ((d.set update.1 (.text update.2)).setTexts updates).get? key = d.get? key
      rw [inductionHypothesis untouched.2, get?_set_of_ne untouched.1]

theorem names_setTexts_of_not_mem (untouched : key ∉ updates.map (·.1)) (d : Document)
    (userId : Int64) : (d.setTexts updates).names key userId = d.names key userId := by
  rw [names, names, get?_setTexts_of_not_mem untouched]

theorem text_setTexts_of_not_mem (untouched : key ∉ updates.map (·.1)) (d : Document) :
    (d.setTexts updates).text key = d.text key := by
  rw [text, text, get?_setTexts_of_not_mem untouched]

theorem int64_setTexts_of_not_mem (untouched : key ∉ updates.map (·.1)) (d : Document) :
    (d.setTexts updates).int64 key = d.int64 key := by
  rw [int64, int64, get?_setTexts_of_not_mem untouched]

/-- Of several texts for a key the last one counts. -/
theorem get?_setTexts (updates : List (String × String)) (d : Document) (key : String) :
    (d.setTexts updates).get? key =
      ((updates.reverse.lookup key).map Tree.text).or (d.get? key) := by
  induction updates generalizing d with
  | nil => rfl
  | cons update updates inductionHypothesis =>
      obtain ⟨written, text⟩ := update
      change ((d.set written (.text text)).setTexts updates).get? key = _
      rw [inductionHypothesis, List.reverse_cons, List.lookup_append, Option.map_or,
        Option.or_assoc, get?_set]
      congr 1
      by_cases same : key = written
      · simp [same]
      · have passed : (key == written) = false := by simpa using same
        simp [List.lookup_cons, same, passed]

/-- A text that no other one contradicts is found under its key. -/
theorem get?_setTexts_of_mem {update : String × String} (member : update ∈ updates)
    (consistent : ∀ other ∈ updates, other.1 = update.1 → other.2 = update.2) (d : Document) :
    (d.setTexts updates).get? update.1 = some (.text update.2) := by
  induction updates generalizing d with
  | nil => cases member
  | cons first updates inductionHypothesis =>
      change ((d.set first.1 (.text first.2)).setTexts updates).get? update.1 = _
      by_cases again : update ∈ updates
      · exact inductionHypothesis again
          (fun other listed => consistent other (List.mem_cons_of_mem first listed)) _
      · obtain rfl : update = first := (List.mem_cons.mp member).resolve_right again
        have untouched : update.1 ∉ updates.map (·.1) := by
          intro listed
          obtain ⟨other, stored, same⟩ := List.mem_map.mp listed
          have equal := consistent other (List.mem_cons_of_mem update stored) same
          exact again (Prod.ext same equal ▸ stored)
        rw [get?_setTexts_of_not_mem untouched, get?_set, if_pos rfl]

theorem setTexts_append (first later : List (String × String)) (d : Document) :
    d.setTexts (first ++ later) = (d.setTexts first).setTexts later := List.foldl_append

theorem keys_prefix_setTexts (updates : List (String × String)) (d : Document) :
    d.fields.map (·.1) <+: (d.setTexts updates).fields.map (·.1) := by
  induction updates generalizing d with
  | nil => exact List.prefix_rfl
  | cons update updates inductionHypothesis =>
      exact (keys_prefix_setIn d.fields).trans (inductionHypothesis (d.set _ _))

/-- Whether a record may be indexed follows from two keys alone. -/
theorem isIndexable_record_setTexts (status : "status" ∉ updates.map (·.1))
    (deleted : "isDeleted" ∉ updates.map (·.1)) (d : Document) :
    (d.setTexts updates).record.isIndexable = d.record.isIndexable := by
  simp only [ContentRecord.isIndexable, record, int64_setTexts_of_not_mem status,
    int64_setTexts_of_not_mem deleted]

end Texts

end DualStore.Memory.Document
