import DualStore.Delivery.Dispatch
import DualStore.Delivery.Header
import DualStore.Proofs.Event.Naming

/-!
Contract: the descriptor of a delivery, from its headers to the kind it is counted under.

Owns:
- headers without a descriptor;
- the kind of a delivery: the blanks around a descriptor are removed twice, to the same effect as
  once;
- the deliveries that are dropped for their descriptor, and nothing else is dropped as they are.

Does not own: what becomes of a delivery of a known kind.
-/

namespace DualStore

open DualStore.Text

/-! ## Missing descriptors -/

/-- Headers that give no descriptor: there are none, the header is missing, its value is no string,
or it is blank. -/
inductive LacksDescriptor : Option HeaderTable → Prop
  | noHeaders : LacksDescriptor none
  | missing {table : HeaderTable} (absent : table.get? typeDescriptorKey = none) :
      LacksDescriptor (some table)
  | noString {table : HeaderTable} {value : HeaderValue}
      (found : table.get? typeDescriptorKey = some value)
      (notLong : ∀ bytes, value ≠ .longString bytes)
      (notShort : ∀ text, value ≠ .shortString text) : LacksDescriptor (some table)
  | blank {table : HeaderTable} {value : HeaderValue} {text : String}
      (found : table.get? typeDescriptorKey = some value) (reads : value.text? = some text)
      (isBlank : Text.isBlank text = true) : LacksDescriptor (some table)

theorem HeaderValue.text?_eq_none_iff {value : HeaderValue} :
    value.text? = none ↔
      (∀ bytes, value ≠ .longString bytes) ∧ ∀ text, value ≠ .shortString text := by
  cases value <;> simp [text?]

theorem typeDescriptor_some {table : HeaderTable} {value : HeaderValue}
    (found : table.get? typeDescriptorKey = some value) :
    typeDescriptor (some table) = value.text? := by
  rw [typeDescriptor, Option.bind_some, found, Option.bind_some]

theorem lacksDescriptor_iff {headers : Option HeaderTable} :
    LacksDescriptor headers ↔
      ∀ text, typeDescriptor headers = some text → isBlank text = true := by
  constructor
  · intro lacks text described
    cases lacks with
    | noHeaders => cases described
    | missing absent =>
        rw [typeDescriptor, Option.bind_some, absent] at described
        cases described
    | noString found notLong notShort =>
        rw [typeDescriptor_some found, HeaderValue.text?_eq_none_iff.mpr ⟨notLong, notShort⟩]
          at described
        cases described
    | blank found reads isBlank =>
        rw [typeDescriptor_some found, reads] at described
        cases described
        exact isBlank
  · intro blank
    cases headers with
    | none => exact .noHeaders
    | some table =>
        cases found : table.get? typeDescriptorKey with
        | none => exact .missing found
        | some value =>
            rw [typeDescriptor_some found] at blank
            cases reads : value.text? with
            | none =>
                obtain ⟨notLong, notShort⟩ := HeaderValue.text?_eq_none_iff.mp reads
                exact .noString found notLong notShort
            | some text => exact .blank found reads (blank text reads)

/-! ## The kind of a delivery -/

namespace Envelope

theorem descriptor?_eq_some_iff {envelope : Envelope} {text : String} :
    envelope.descriptor? = some text ↔
      ∃ given, envelope.descriptor = some given ∧ isBlank given = false ∧ trim given = text := by
  have visible (given : String) : (trim given ≠ "") ↔ isBlank given = false := by
    rw [Ne, trim_eq_empty_iff, Bool.not_eq_true]
  unfold descriptor?
  cases envelope.descriptor with
  | none => simp
  | some given =>
      simp only [Option.map_some, Option.filter_eq_some_iff, Option.some.injEq, decide_eq_true_eq]
      constructor
      · rintro ⟨rfl, notEmpty⟩
        exact ⟨given, rfl, (visible given).mp notEmpty, rfl⟩
      · rintro ⟨_, rfl, notBlank, rfl⟩
        exact ⟨rfl, (visible _).mpr notBlank⟩

theorem descriptor?_eq_none_iff {envelope : Envelope} :
    envelope.descriptor? = none ↔
      ∀ given, envelope.descriptor = some given → isBlank given = true := by
  rw [Option.eq_none_iff_forall_not_mem]
  constructor
  · intro nothing given described
    by_contra notBlank
    exact nothing _ (descriptor?_eq_some_iff.mpr
      ⟨given, described, eq_false_of_ne_true notBlank, rfl⟩)
  · intro blank text described
    obtain ⟨given, isGiven, notBlank, -⟩ := descriptor?_eq_some_iff.mp described
    rw [blank given isGiven] at notBlank
    cases notBlank

/-- Removing the blanks around a descriptor first does not change the kind that it names. -/
theorem kind_of_descriptor? (envelope : Envelope) :
    envelope.descriptor?.bind Kind.ofDescriptor? =
      envelope.descriptor.bind Kind.ofDescriptor? := by
  cases described : envelope.descriptor? with
  | none =>
      have blank := descriptor?_eq_none_iff.mp described
      cases isGiven : envelope.descriptor with
      | none => rfl
      | some given =>
          rw [Option.bind_none, Option.bind_some,
            Kind.ofDescriptor?_of_isBlank (blank given isGiven)]
  | some text =>
      obtain ⟨given, isGiven, -, rfl⟩ := descriptor?_eq_some_iff.mp described
      rw [isGiven, Option.bind_some, Option.bind_some, Kind.ofDescriptor?_trim]

end Envelope

/-! ## Dropped deliveries -/

theorem Report.of_mem_counts_handled {kind : Kind} {attempts : Attempts} {count : Count}
    (counted : count ∈ (Report.handled kind attempts).counts) :
    count = ⟨some kind, .ack⟩ ∨ count = ⟨some kind, .nack⟩ := by
  unfold handled at counted
  split at counted
  · exact Or.inl (List.mem_singleton.mp counted)
  · exact Or.inr (List.mem_singleton.mp counted)
  · cases counted

/-- What the descriptor of a delivery comes to, and what is counted for it. -/
inductive Envelope.Sorted (envelope : Envelope) (counts : List Count) : Prop
  | malformed (missing : envelope.descriptor? = none)
      (counted : counts = [⟨none, .droppedMalformed⟩])
  | unknown {text : String} (described : envelope.descriptor? = some text)
      (unnamed : Kind.ofDescriptor? text = none) (counted : counts = [⟨none, .droppedUnknown⟩])
  | known {text : String} {kind : Kind} (described : envelope.descriptor? = some text)
      (named : Kind.ofDescriptor? text = some kind)
      (counted : ∀ count ∈ counts, count.kind = some kind ∧
        count.disposition ≠ .droppedMalformed ∧ count.disposition ≠ .droppedUnknown)

theorem process_sorted {σ : Type} (handler : Handler σ) (policy : RetryPolicy)
    (envelope : Envelope) (state : σ) :
    envelope.Sorted (process handler policy envelope state).1.counts := by
  unfold process
  cases described : envelope.descriptor? with
  | none => exact .malformed described rfl
  | some text =>
      dsimp only
      cases named : Kind.ofDescriptor? text with
      | none => exact .unknown described named rfl
      | some kind =>
          refine .known described named fun count counted => ?_
          dsimp only at counted
          split at counted
          · split at counted
            · rw [List.mem_singleton.mp counted]
              simp
            · rcases Report.of_mem_counts_handled counted with rfl | rfl <;> simp
          · rw [List.mem_singleton.mp counted]
            simp

namespace Envelope.Sorted

variable {envelope : Envelope} {counts : List Count} (sorted : envelope.Sorted counts)
include sorted

theorem kind_eq {count : Count} (counted : count ∈ counts) :
    count.kind = envelope.descriptor?.bind Kind.ofDescriptor? := by
  cases sorted with
  | malformed missing isCounted =>
      rw [isCounted] at counted
      rw [List.mem_singleton.mp counted, missing, Option.bind_none]
  | unknown described unnamed isCounted =>
      rw [isCounted] at counted
      rw [List.mem_singleton.mp counted, described, Option.bind_some, unnamed]
  | known described named isCounted =>
      rw [(isCounted count counted).1, described, Option.bind_some, named]

theorem malformed_iff :
    (∃ count ∈ counts, count.disposition = .droppedMalformed) ↔ envelope.descriptor? = none := by
  cases sorted with
  | malformed missing isCounted => simp [missing, isCounted]
  | unknown described unnamed isCounted => simp [described, isCounted]
  | known described named isCounted =>
      simp only [described, reduceCtorEq, iff_false]
      rintro ⟨count, counted, dropped⟩
      exact (isCounted count counted).2.1 dropped

theorem unknown_iff :
    (∃ count ∈ counts, count.disposition = .droppedUnknown) ↔
      ∃ text, envelope.descriptor? = some text ∧ Kind.ofDescriptor? text = none := by
  cases sorted with
  | malformed missing isCounted => simp [missing, isCounted]
  | unknown described unnamed isCounted => simp [described, unnamed, isCounted]
  | known described named isCounted =>
      simp only [described, Option.some.injEq, exists_eq_left', named, reduceCtorEq, iff_false]
      rintro ⟨count, counted, dropped⟩
      exact (isCounted count counted).2.2 dropped

end Envelope.Sorted

/-- For every descriptor: it resolves to exactly the kinds that it names, which is one at most, and
neither what stands before a dot in front of it nor the blanks around it change to which. For every
delivery, whatever its headers: the kind that it is counted under is the one that its descriptor
resolves to as it was sent. It is dropped as malformed exactly if its headers give no descriptor but
a blank one, and as unknown exactly if they give another that names no kind. -/
theorem Kind.ofDescriptor?_decides :
    (∀ descriptor kind, ofDescriptor? descriptor = some kind ↔ IsNamedBy kind descriptor) ∧
    (∀ descriptor kind other, IsNamedBy kind descriptor → IsNamedBy other descriptor →
      kind = other) ∧
    (∀ front text, ofDescriptor? (front ++ "." ++ trim text) = ofDescriptor? text) ∧
    (∀ front kind, ∀ name ∈ names kind, ofDescriptor? (front ++ "." ++ name) = some kind) ∧
    (∀ descriptor, ofDescriptor? (trim descriptor) = ofDescriptor? descriptor) ∧
    ∀ {σ : Type} (handler : Handler σ) (policy : RetryPolicy) (headers : Option HeaderTable)
      (body : List UInt8) (tag : Nat) (state : σ),
      let envelope : Envelope := ⟨typeDescriptor headers, body, tag⟩
      let counts := (process handler policy envelope state).1.counts
      (∀ count ∈ counts, count.kind = (typeDescriptor headers).bind ofDescriptor?) ∧
        ((∃ count ∈ counts, count.disposition = .droppedMalformed) ↔ LacksDescriptor headers) ∧
        ((∃ count ∈ counts, count.disposition = .droppedUnknown) ↔
          ∃ text, typeDescriptor headers = some text ∧ isBlank text = false ∧
            ∀ kind, ¬IsNamedBy kind text) := by
  refine ⟨fun _ _ => ofDescriptor?_eq_some_iff, ?_, ofDescriptor?_dotted, ?_,
    ofDescriptor?_trim, ?_⟩
  · intro descriptor kind other named namedToo
    rw [← ofDescriptor?_eq_some_iff] at named namedToo
    exact Option.some.inj (named.symm.trans namedToo)
  · intro front kind name named
    have trimmed : trim name = name := trim_eq_self fun c member =>
      (plain_of_mem_names kind name named c member).2
    have dotted := ofDescriptor?_dotted front name
    rwa [trimmed, ofDescriptor?_of_mem_names named] at dotted
  · intro σ handler policy headers body tag state envelope counts
    have sorted : envelope.Sorted counts := process_sorted handler policy envelope state
    refine ⟨fun count counted => ?_, ?_, ?_⟩
    · exact (sorted.kind_eq counted).trans envelope.kind_of_descriptor?
    · exact sorted.malformed_iff.trans
        (Envelope.descriptor?_eq_none_iff.trans lacksDescriptor_iff.symm)
    · have unnamed (text : String) :
          ofDescriptor? text = none ↔ ∀ kind, ¬IsNamedBy kind text := by
        simp only [← ofDescriptor?_eq_some_iff, Option.eq_none_iff_forall_ne_some]
      rw [sorted.unknown_iff]
      constructor
      · rintro ⟨_, described, unknown⟩
        obtain ⟨text, given, notBlank, rfl⟩ := Envelope.descriptor?_eq_some_iff.mp described
        rw [ofDescriptor?_trim] at unknown
        exact ⟨text, given, notBlank, (unnamed text).mp unknown⟩
      · rintro ⟨text, given, notBlank, unknown⟩
        refine ⟨trim text, Envelope.descriptor?_eq_some_iff.mpr ⟨text, given, notBlank, rfl⟩, ?_⟩
        rw [ofDescriptor?_trim]
        exact (unnamed text).mpr unknown

/-- An older name behind empty segments and between blanks names one kind and no other. A descriptor
that ends in a dot names none, and its delivery is dropped as unknown. -/
theorem Kind.ofDescriptor?_decides_segments :
    let descriptor := "\u3000..com..PostCreateEvent "
    let headers : Option HeaderTable := some [(typeDescriptorKey, .shortString "com.")]
    let counts := (process ⟨fun _ => true, fun _ state => (.finished (.ok ()), state)⟩ .none
      ⟨typeDescriptor headers, [], 0⟩ ()).1.counts
    IsNamedBy contentCreated descriptor ∧ ofDescriptor? descriptor = some contentCreated ∧
      ¬IsNamedBy contentUpdated descriptor ∧
      "PostCreateEvent" ∈ names contentCreated ∧
      ofDescriptor? (" .." ++ "." ++ "PostCreateEvent") = some contentCreated ∧
      ∃ count ∈ counts, count.disposition = .droppedUnknown := by
  intro descriptor headers counts
  obtain ⟨resolves, unique, -, behindDots, -, delivered⟩ := Kind.ofDescriptor?_decides
  have named : IsNamedBy contentCreated descriptor :=
    (resolves descriptor contentCreated).mp (by decide +kernel)
  have older : "PostCreateEvent" ∈ names contentCreated := by decide
  have unnamed (kind : Kind) : ¬IsNamedBy kind "com." := by
    intro isNamed
    have found := (resolves "com." kind).mpr isNamed
    rw [show ofDescriptor? "com." = none by decide +kernel] at found
    cases found
  refine ⟨named, (resolves descriptor contentCreated).mpr named, fun other => ?_, older,
    behindDots " .." contentCreated "PostCreateEvent" older, ?_⟩
  · cases unique descriptor contentCreated contentUpdated named other
  · exact (delivered _ _ headers _ _ _).2.2.mpr ⟨"com.", rfl, by decide, unnamed⟩

end DualStore
