import DualStore.Sync.Context
import DualStore.Sync.Script

/-!
Contract: the history of searches, one record for each user and keyword.

Owns: the script that records a query of a known user; the keyword is kept exactly as typed, and
only looked at to see that it is not blank.

Does not own: the two times of a record, which the store keeps.
-/

namespace DualStore.SearchHistory

open DualStore.Time DualStore.Text

/-- Only queries belong here. -/
def accepts (kind : Kind) : Bool := kind == .searchQueryIssued

/-- A query is recorded when it has a user and a keyword that is not blank. -/
def isRecorded (query : SearchQueryIssued) : Bool :=
  0 < query.userId && !isBlank query.keyword

def script (context : Context) : Event → Script
  | .searchQueryIssued query =>
      if isRecorded query then
        .readClock fun now =>
          .call (.upsertSearchHistory query.userId query.keyword (.observed ⟨now, context.offset⟩))
            fun () => .done
      else .done
  | _ => .done

end DualStore.SearchHistory
