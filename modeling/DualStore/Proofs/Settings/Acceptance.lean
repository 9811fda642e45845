import DualStore.Broker.Topology
import DualStore.Proofs.Settings.Variables
import DualStore.Proofs.Success

/-!
Contract: which variables settings are made of, and what the settings have then.

Owns:
- the variable that overrides the workers of each route, the workers of each queue, and the
  attempts;
- settings are made exactly if every number that has to be right is;
- variables that are put in other words: a blank one is unset, or a number or a switch has other
  blanks around it. The settings are the same.

Does not own: how a single variable is read.
-/

namespace DualStore

open DualStore.Number DualStore.Text DualStore.Time

/-! ## Workers and attempts -/

def WorkerCounts.of (workers : WorkerCounts) : Route → Nat
  | .auditLog => workers.auditLog
  | .searchHistory => workers.searchHistory
  | .indexSync => workers.indexSync
  | .userPropagation => workers.userPropagation

namespace Settings

/-- The variable that overrides the workers of a route. -/
def workersKey : Route → String
  | .auditLog => auditLogWorkersKey
  | .searchHistory => searchHistoryWorkersKey
  | .indexSync => indexSyncWorkersKey
  | .userPropagation => userPropagationWorkersKey

/-- The variables that count workers. -/
def workerKeys : List String := workerCountKey :: Route.all.map workersKey

theorem workersKey_mem (route : Route) : workersKey route ∈ workerKeys := by
  cases route <;> decide

theorem workers_of_mem_queues {settings : Settings} {queue : QueueSpec}
    (member : queue ∈ settings.topology.queues) :
    queue.workers = settings.workers.of queue.route := by
  simp only [topology, List.mem_cons, List.not_mem_nil, or_false] at member
  rcases member with rfl | rfl | rfl | rfl <;> rfl

/-- A policy keeps a number of attempts that is read as at least one. -/
theorem maxAttempts_assemble {lookup : Lookup} {workers : WorkerCounts} {offset : Offset}
    {maxAttempts : UInt32} (positive : 1 ≤ maxAttempts.toNat) :
    (assemble lookup workers offset maxAttempts).retry.maxAttempts = maxAttempts := by
  apply UInt32.toNat_inj.mp
  exact RetryPolicy.toNat_maxAttempts_new.trans (Nat.max_eq_left positive)

theorem one_le_of_gives {lookup : Lookup} {key : String} {default count : Nat}
    (positive : 1 ≤ default) (gives : lookup.Gives key default SpellsWorkers count) :
    1 ≤ count := by
  cases gives with
  | default => exact positive
  | spelled _ spells => exact spells.2.1

/-! ## Acceptance -/

section Acceptance

variable {lookup : Lookup}

/-- Settings are made of the workers of every route, the offset and the attempts, and the numbers of
workers default to a number which is read itself. -/
theorem ofLookup_eq_ok_iff {settings : Settings} :
    ofLookup lookup = .ok settings ↔
      ∃ shared offset maxAttempts workers,
        readWorkers lookup workerCountKey 20 = .ok shared ∧ readOffset lookup = .ok offset ∧
        readMaxAttempts lookup = .ok maxAttempts ∧
        (∀ route, readWorkers lookup (workersKey route) shared = .ok (workers.of route)) ∧
        assemble lookup workers offset maxAttempts = settings := by
  simp only [ofLookup, bind_eq_ok_iff]
  constructor
  · rintro ⟨shared, isShared, offset, isOffset, maxAttempts, areAttempts, auditLog, isAuditLog,
      searchHistory, isSearchHistory, indexSync, isIndexSync, userPropagation, isUserPropagation,
      isSettings⟩
    refine ⟨shared, offset, maxAttempts, ⟨auditLog, searchHistory, indexSync, userPropagation⟩,
      isShared, isOffset, areAttempts, fun route => ?_, Except.ok.inj isSettings⟩
    cases route with
    | auditLog => exact isAuditLog
    | searchHistory => exact isSearchHistory
    | indexSync => exact isIndexSync
    | userPropagation => exact isUserPropagation
  · rintro ⟨shared, offset, maxAttempts, workers, isShared, isOffset, areAttempts, areWorkers,
      isSettings⟩
    exact ⟨shared, isShared, offset, isOffset, maxAttempts, areAttempts,
      _, areWorkers .auditLog, _, areWorkers .searchHistory, _, areWorkers .indexSync,
      _, areWorkers .userPropagation, congrArg Except.ok isSettings⟩

theorem exists_ofLookup_iff (secondsFit : SecondsFit lookup) :
    (∃ settings, ofLookup lookup = .ok settings) ↔
      (∀ key ∈ workerKeys, ¬lookup.Misstates key SpellsWorkers) ∧
        ¬lookup.Misstates offsetKey SpellsOffset ∧
        ¬lookup.Misstates maxAttemptsKey SpellsAttempts := by
  rw [← exists_readOffset_iff secondsFit, ← exists_readMaxAttempts_iff]
  constructor
  · rintro ⟨settings, accepted⟩
    obtain ⟨shared, offset, maxAttempts, workers, isShared, isOffset, areAttempts, areWorkers, -⟩ :=
      ofLookup_eq_ok_iff.mp accepted
    refine ⟨fun key member => ?_, ⟨offset, isOffset⟩, maxAttempts, areAttempts⟩
    rcases List.mem_cons.mp member with rfl | overrides
    · exact exists_readWorkers_iff.mp ⟨shared, isShared⟩
    · obtain ⟨route, -, rfl⟩ := List.mem_map.mp overrides
      exact exists_readWorkers_iff.mp ⟨_, areWorkers route⟩
  · rintro ⟨stated, ⟨offset, isOffset⟩, maxAttempts, areAttempts⟩
    -- Whether a count is read does not depend on its default, so the shared one may come first.
    have workersOf {key : String} (member : key ∈ workerKeys) (default : Nat) :
        ∃ count, readWorkers lookup key default = .ok count :=
      exists_readWorkers_iff.mpr (stated key member)
    obtain ⟨shared, isShared⟩ := workersOf List.mem_cons_self 20
    have ofRoute (route : Route) := workersOf (workersKey_mem route) shared
    obtain ⟨counts, areCounts⟩ := Classical.axiomOfChoice ofRoute
    refine ⟨_, ofLookup_eq_ok_iff.mpr ⟨shared, offset, maxAttempts,
      ⟨counts .auditLog, counts .searchHistory, counts .indexSync, counts .userPropagation⟩,
      isShared, isOffset, areAttempts, fun route => ?_, rfl⟩⟩
    cases route <;> exact areCounts _

end Acceptance

/-! ## Other words -/

/-- The variables that hold a number or a switch. -/
def trimmedKeys : List String :=
  workerKeys ++ [offsetKey, maxAttemptsKey, backoffKey, httpPortKey, auditKey]

/-- A variable as it was, and as it is in other words: the same, unset in place of blank, or a
number or a switch between other blanks. -/
inductive Reworded (key : String) : Option String → Option String → Prop
  | same (value : Option String) : Reworded key value value
  | unset (value : String) (blank : isBlank value = true) : Reworded key (some value) none
  | padded (before after : List Char) (value : String) (isTrimmed : key ∈ trimmedKeys)
      (blankBefore : before.all isBlankChar = true) (blankAfter : after.all isBlankChar = true) :
      Reworded key (some value) (some (String.ofList (before ++ value.toList ++ after)))

/-- Variables, each of them as others have it or in other words. -/
def Rewords (other lookup : Lookup) : Prop :=
  ∀ key, Reworded key (lookup key) (other key)

section Rewording

variable {lookup other : Lookup} {key : String}

theorem Reworded.filter_eq {value reworded : Option String}
    (isReworded : Reworded key value reworded) (notTrimmed : key ∉ trimmedKeys) :
    reworded.filter (!isBlank ·) = value.filter (!isBlank ·) := by
  cases isReworded with
  | same => rfl
  | unset value blank =>
      rw [Option.filter_some, blank]
      rfl
  | padded before after value isTrimmed => exact absurd isTrimmed notTrimmed

theorem Reworded.map_trim_eq {value reworded : Option String}
    (isReworded : Reworded key value reworded) :
    (reworded.filter (!isBlank ·)).map trim = (value.filter (!isBlank ·)).map trim := by
  cases isReworded with
  | same => rfl
  | unset value blank =>
      rw [Option.filter_some, blank]
      rfl
  | padded before after value _ blankBefore blankAfter =>
      have sameText : trim (String.ofList (before ++ value.toList ++ after)) = trim value := by
        rw [trim, String.toList_ofList, trimChars_padded value.toList blankBefore blankAfter, trim]
      have sameBlank :
          isBlank (String.ofList (before ++ value.toList ++ after)) = isBlank value := by
        rw [isBlank, String.toList_ofList, List.all_append, List.all_append, blankBefore,
          blankAfter, Bool.true_and, Bool.and_true, isBlank]
      rw [Option.filter_some, Option.filter_some, sameBlank]
      cases isBlank value with
      | true => rfl
      | false => exact congrArg some sameText

namespace Rewords

variable (rewords : Rewords other lookup)
include rewords

theorem text?_eq : other.text? key = lookup.text? key :=
  (rewords key).map_trim_eq

theorem valueOr_eq {default : String} (notTrimmed : key ∉ trimmedKeys) :
    other.valueOr key default = lookup.valueOr key default :=
  congrArg (·.getD default) ((rewords key).filter_eq notTrimmed)

theorem assemble_eq (workers : WorkerCounts) (offset : Offset) (maxAttempts : UInt32) :
    assemble other workers offset maxAttempts = assemble lookup workers offset maxAttempts := by
  unfold assemble
  simp (disch := decide) only [rewords.valueOr_eq, readSwitch_congr rewords.text?_eq,
    readLenient_congr rewords.text?_eq]

/-- Settings are the same in other words, where there are any. The message of a fault may differ, as
it has the words. -/
theorem toOption_ofLookup : (ofLookup other).toOption = (ofLookup lookup).toOption := by
  apply Option.ext
  intro settings
  rw [toOption_eq_some_iff, toOption_eq_some_iff, ofLookup_eq_ok_iff, ofLookup_eq_ok_iff]
  simp only [readWorkers_eq_ok_iff, readOffset_eq_ok_iff, readMaxAttempts_eq_ok_iff,
    Lookup.gives_congr rewords.text?_eq, rewords.assemble_eq]

end Rewords

end Rewording

theorem exists_error_iff (lookup : Lookup) :
    (∃ error, ofLookup lookup = .error error) ↔ ¬∃ settings, ofLookup lookup = .ok settings := by
  cases ofLookup lookup <;> simp

/-- For all variables with an offset whose seconds are a number of 32 bits. They are refused exactly
if one of the counts of workers, the offset or the attempts is neither left out nor spelled.
Otherwise each route has one queue, with at least one worker: as many as its own variable gives,
else as many as the shared one gives, else 20. There is at least one attempt, already as they are
read, and the offset is of less than a day. Variables in other words make the same settings, or none
again. -/
theorem ofLookup_accepts_usable (lookup : Lookup) (secondsFit : SecondsFit lookup) :
    ((∃ error, ofLookup lookup = .error error) ↔
      (∃ key ∈ workerKeys, lookup.Misstates key SpellsWorkers) ∨
        lookup.Misstates offsetKey SpellsOffset ∨
        lookup.Misstates maxAttemptsKey SpellsAttempts) ∧
    (∀ settings, ofLookup lookup = .ok settings →
      settings.topology.queues.map (·.route) = Route.all ∧
      (∃ shared, lookup.Gives workerCountKey 20 SpellsWorkers shared ∧
        ∀ queue ∈ settings.topology.queues, 1 ≤ queue.workers ∧
          lookup.Gives (workersKey queue.route) shared SpellsWorkers queue.workers) ∧
      (∃ count, lookup.Gives maxAttemptsKey 3 SpellsAttempts count ∧
        settings.retry.maxAttempts.toNat = max count 1) ∧
      readMaxAttempts lookup = .ok settings.retry.maxAttempts ∧
      1 ≤ settings.retry.maxAttempts.toNat ∧
      (∃ hours, lookup.Gives offsetKey 8 SpellsOffset hours ∧
        settings.context.offset.seconds = hours * 3600) ∧
      -86400 < settings.context.offset.seconds ∧ settings.context.offset.seconds < 86400) ∧
    ∀ other, Rewords other lookup → (ofLookup other).toOption = (ofLookup lookup).toOption := by
  refine ⟨?_, fun settings accepted => ?_, fun other rewords => rewords.toOption_ofLookup⟩
  · rw [exists_error_iff, exists_ofLookup_iff secondsFit]
    simp only [Classical.not_and_iff_not_or_not, Classical.not_forall, Classical.not_not,
      exists_prop]
  · obtain ⟨shared, offset, maxAttempts, workers, isShared, isOffset, areAttempts, areWorkers,
      rfl⟩ := ofLookup_eq_ok_iff.mp accepted
    have sharedGiven := readWorkers_eq_ok_iff.mp isShared
    have sharedPositive := one_le_of_gives (by decide) sharedGiven
    obtain ⟨count, countGiven, isCount⟩ := readMaxAttempts_eq_ok_iff.mp areAttempts
    have positive : 1 ≤ maxAttempts.toNat := by
      rw [isCount]
      exact Nat.le_max_right count 1
    rw [maxAttempts_assemble positive]
    refine ⟨rfl, ⟨shared, sharedGiven, fun queue member => ?_⟩, ⟨count, countGiven, isCount⟩,
      areAttempts, positive, (readOffset_eq_ok_iff_of_secondsFit secondsFit).mp isOffset,
      offset.withinDay⟩
    have given := readWorkers_eq_ok_iff.mp (areWorkers queue.route)
    rw [workers_of_mem_queues member]
    exact ⟨one_le_of_gives sharedPositive given, given⟩

/-- Four workers for each route but one, and in other words the same. A whole day is no offset. -/
theorem ofLookup_accepts_usable_fourWorkers :
    let lookup : Lookup := fun key =>
      if key = workerCountKey then some "+4"
      else if key = auditLogWorkersKey then some "\u3000"
      else if key = userPropagationWorkersKey then some "2"
      else if key = offsetKey then some "-23"
      else none
    let other : Lookup := fun key =>
      if key = workerCountKey then some "\t+4 "
      else if key = auditLogWorkersKey then none
      else lookup key
    let wholeDay : Lookup := fun key => if key = offsetKey then some "24" else none
    SecondsFit lookup ∧ SecondsFit wholeDay ∧ Rewords other lookup ∧
      (∃ settings, ofLookup lookup = .ok settings ∧
        settings.topology.queues.map (·.workers) = [4, 4, 4, 2] ∧
        (ofLookup other).toOption = some settings ∧
        1 ≤ settings.retry.maxAttempts.toNat) ∧
      ∃ error, ofLookup wholeDay = .error error := by
  intro lookup other wholeDay
  have fit : SecondsFit lookup :=
    secondsFit_of_reads "-23" (-23) (by decide) (by decide) (by decide)
  have fitToo : SecondsFit wholeDay :=
    secondsFit_of_reads "24" 24 (by decide) (by decide) (by decide)
  have rewords : Rewords other lookup := by
    intro key
    by_cases isShared : key = workerCountKey
    · subst isShared
      exact .padded ['\t'] [' '] "+4" (by decide) (by decide) (by decide)
    · by_cases isAuditLog : key = auditLogWorkersKey
      · subst isAuditLog
        exact .unset "\u3000" (by decide)
      · simp only [other, if_neg isShared, if_neg isAuditLog]
        exact .same _
  have noOffset (hours : Int) : ¬SpellsOffset "24" hours := by
    intro spells
    have reads := readInt_eq_ok_iff_spellsHours.mpr spells.spellsHours
    have isDay : hours = 24 := (Except.ok.inj reads).symm
    have atMost := spells.2.2
    omega
  obtain ⟨-, usable, sameWords⟩ := ofLookup_accepts_usable lookup fit
  refine ⟨fit, fitToo, rewords, ?_, (ofLookup_accepts_usable wholeDay fitToo).1.mpr ?_⟩
  · refine ⟨_, rfl, by decide +kernel, sameWords other rewords, ?_⟩
    exact (usable _ rfl).2.2.2.2.1
  · exact .inr (.inl ⟨"24", ⟨"24", by decide, by decide, by decide⟩, noOffset⟩)

end Settings

end DualStore
