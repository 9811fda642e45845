import DualStore.Event.Kind
import DualStore.Proofs.Text.Blank

/-!
Contract: which descriptors name a kind.

Owns:
- the last segment of a text, which no segment before it changes;
- the names of the kinds: each belongs to one kind only, and none has a dot or a blank;
- the descriptors that name a kind, told without their segments: blanks around it aside, such a
  descriptor is a name or ends in a dot and a name.

Does not own: where descriptors are read from.
-/

namespace DualStore.Kind

open DualStore.Text

/-! ## Last segments -/

theorem lastSegment_append (front cs : List Char) :
    lastSegment (front ++ '.' :: cs) = lastSegment cs := by
  have stops : ('.' :: front.reverse).takeWhile (· ≠ '.') = [] := by simp
  rw [lastSegment, lastSegment, List.reverse_append, List.reverse_cons, List.append_assoc,
    List.singleton_append, List.takeWhile_append, stops]
  split
  · rename_i whole
    rw [List.append_nil, (List.takeWhile_prefix _).eq_of_length whole]
  · rfl

theorem lastSegment_of_noDot {cs : List Char} (noDot : ∀ c ∈ cs, c ≠ '.') :
    lastSegment cs = cs := by
  have whole : cs.reverse.takeWhile (· ≠ '.') = cs.reverse := by
    apply List.takeWhile_eq_self_iff.mpr
    intro c member
    simpa using noDot c (List.mem_reverse.mp member)
  rw [lastSegment, whole, List.reverse_reverse]

/-- A text is its last segment, or ends in a dot and its last segment. -/
theorem eq_lastSegment_or (cs : List Char) :
    cs = lastSegment cs ∨ ∃ front, cs = front ++ '.' :: lastSegment cs := by
  have parts := List.takeWhile_append_dropWhile (p := fun c => c ≠ '.') (l := cs.reverse)
  have stopped := List.head?_dropWhile_not (· ≠ '.') cs.reverse
  cases left : cs.reverse.dropWhile (· ≠ '.') with
  | nil =>
      rw [left, List.append_nil] at parts
      exact Or.inl (by rw [lastSegment, parts, List.reverse_reverse])
  | cons c before =>
      rw [left] at parts stopped
      have isDot : c = '.' := by simpa using stopped
      rw [isDot] at parts
      refine Or.inr ⟨before.reverse, ?_⟩
      calc cs
        _ = cs.reverse.reverse := (List.reverse_reverse cs).symm
        _ = (cs.reverse.takeWhile (· ≠ '.') ++ '.' :: before).reverse := by rw [parts]
        _ = before.reverse ++ '.' :: lastSegment cs := by simp [lastSegment]

/-- A name without dots is the last segment of exactly the texts that are the name, or end in a dot
and the name. -/
theorem lastSegment_eq_iff {cs name : List Char} (noDot : ∀ c ∈ name, c ≠ '.') :
    lastSegment cs = name ↔ cs = name ∨ ∃ front, cs = front ++ '.' :: name := by
  constructor
  · intro same
    rw [← same]
    exact eq_lastSegment_or cs
  · rintro (rfl | ⟨front, rfl⟩)
    · exact lastSegment_of_noDot noDot
    · rw [lastSegment_append, lastSegment_of_noDot noDot]

/-! ## Names -/

/-- The names of a kind: its own, and those that older producers use. -/
def names (kind : Kind) : List String := kind.name :: kind.aliases

theorem isNamed_iff {kind : Kind} {text : String} :
    kind.isNamed text = true ↔ text ∈ kind.names := by
  rw [isNamed, names, Bool.or_eq_true, beq_iff_eq, List.contains_iff_mem, List.mem_cons, eq_comm]

theorem ofName?_of_mem_names : ∀ kind : Kind, ∀ name ∈ kind.names, ofName? name = some kind := by
  intro kind
  cases kind <;> decide

/-- The order in which kinds are searched makes no difference. -/
theorem ofName?_eq_some_iff {text : String} {kind : Kind} :
    ofName? text = some kind ↔ text ∈ kind.names := by
  constructor
  · intro found
    have holds := List.find?_some found
    exact isNamed_iff.mp holds
  · exact ofName?_of_mem_names kind text

theorem plain_of_mem_names (kind : Kind) (name : String) (named : name ∈ kind.names) (c : Char)
    (member : c ∈ name.toList) : c ≠ '.' ∧ isBlankChar c = false := by
  have plain : kind.names.all (·.toList.all fun c => c != '.' && !isBlankChar c) = true := by
    cases kind <;> rfl
  have ofName := List.all_eq_true.mp plain name named
  have ofChar := List.all_eq_true.mp ofName c member
  simpa using ofChar

/-! ## Descriptors -/

/-- A descriptor names a kind: without the blanks around it, it is a name of the kind, or it ends in
a dot and such a name. -/
def IsNamedBy (kind : Kind) (descriptor : String) : Prop :=
  ∃ name ∈ kind.names, trim descriptor = name ∨ ∃ front, trim descriptor = front ++ "." ++ name

theorem toList_trim (text : String) : (trim text).toList = trimChars text.toList :=
  String.toList_ofList

theorem toList_dotted (front name : String) :
    (front ++ "." ++ name).toList = front.toList ++ '.' :: name.toList := by
  simp

theorem lastSegment_trim_eq_iff {descriptor name : String} (noDot : ∀ c ∈ name.toList, c ≠ '.') :
    String.ofList (lastSegment (trimChars descriptor.toList)) = name ↔
      trim descriptor = name ∨ ∃ front, trim descriptor = front ++ "." ++ name := by
  have dotted (front : List Char) :
      trimChars descriptor.toList = front ++ '.' :: name.toList ↔
        trim descriptor = String.ofList front ++ "." ++ name := by
    rw [← String.toList_inj, toList_trim, toList_dotted, String.toList_ofList]
  rw [← String.toList_inj, String.toList_ofList, lastSegment_eq_iff noDot, ← toList_trim,
    String.toList_inj, toList_trim]
  refine or_congr Iff.rfl ⟨?_, ?_⟩
  · rintro ⟨front, ends⟩
    exact ⟨_, (dotted front).mp ends⟩
  · rintro ⟨front, ends⟩
    exact ⟨front.toList, (dotted front.toList).mpr (by rw [String.ofList_toList, ends])⟩

theorem ofDescriptor?_eq_some_iff {descriptor : String} {kind : Kind} :
    ofDescriptor? descriptor = some kind ↔ kind.IsNamedBy descriptor := by
  rw [ofDescriptor?, ofName?_eq_some_iff]
  constructor
  · intro named
    have noDot := fun c member => (plain_of_mem_names kind _ named c member).1
    exact ⟨_, named, (lastSegment_trim_eq_iff noDot).mp rfl⟩
  · rintro ⟨name, named, ends⟩
    have noDot := fun c member => (plain_of_mem_names kind name named c member).1
    rwa [(lastSegment_trim_eq_iff noDot).mpr ends]

theorem ofDescriptor?_trim (descriptor : String) :
    ofDescriptor? (trim descriptor) = ofDescriptor? descriptor := by
  rw [ofDescriptor?, ofDescriptor?, toList_trim, trimChars_trimChars]

/-- Whatever is put before a dot in front of a descriptor makes no difference. -/
theorem ofDescriptor?_dotted (front text : String) :
    ofDescriptor? (front ++ "." ++ trim text) = ofDescriptor? text := by
  have dot : isBlankChar '.' = false := by decide
  have ends : EndsVisible ('.' :: trimChars text.toList) := by
    by_cases nothing : trimChars text.toList = []
    · rw [nothing]
      exact ⟨[], '.', rfl, dot⟩
    · exact (endsVisible_trimChars nothing).cons '.'
  obtain ⟨kept, trimmed⟩ := exists_trimChars_append front.toList dot ends
  rw [ofDescriptor?, ofDescriptor?, toList_dotted, toList_trim, trimmed, lastSegment_append]

theorem ofDescriptor?_of_isBlank {descriptor : String} (blank : isBlank descriptor = true) :
    ofDescriptor? descriptor = none := by
  rw [← ofDescriptor?_trim, trim_eq_empty_iff.mpr blank]
  decide

theorem ofDescriptor?_of_mem_names {kind : Kind} {name : String} (named : name ∈ kind.names) :
    ofDescriptor? name = some kind :=
  ofDescriptor?_eq_some_iff.mpr ⟨name, named, Or.inl (trim_eq_self fun c member =>
    (plain_of_mem_names kind name named c member).2)⟩

end DualStore.Kind
