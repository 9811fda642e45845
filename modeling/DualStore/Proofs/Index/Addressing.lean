import DualStore.Index.Exchange
import DualStore.Proofs.Index.Segment

/-!
Contract: which paths the requests about one document go to.

Owns:
- the requests that an exchange can come to; writing and removing a document are one request each;
- the path of these requests: the place of the document in its index, unless the id is a dot, which
  leads to the collection of documents, or two dots, which lead to the index itself;
- from this, that no two ids have one path, and which ids reach nothing but their own document.

Does not own: what a server does at a path.
-/

namespace DualStore

/-- Every request that an exchange can come to has a property, whatever is replied. -/
def Exchange.Sends (property : Request → Prop) {α : Type} : Exchange α → Prop
  | .finish _ => True
  | .send request resume => property request ∧ ∀ reply, (resume reply).Sends property

namespace IndexServer

variable {server : IndexServer}

/-! ## Requests -/

theorem sends_upsert {property : Request → Prop} {document : IndexDocument} :
    (server.upsert document).Sends property ↔
      property ⟨.post, server.documentPath document.id, some document.tree⟩ := by
  refine ⟨fun sends => sends.1, fun holds => ⟨holds, fun reply => ?_⟩⟩
  cases reply with
  | closed => exact trivial
  | answered status body =>
      dsimp only
      split <;> exact trivial

theorem sends_delete {property : Request → Prop} {id : String} :
    (server.delete id).Sends property ↔ property ⟨.delete, server.documentPath id, none⟩ := by
  refine ⟨fun sends => sends.1, fun holds => ⟨holds, fun reply => ?_⟩⟩
  cases reply with
  | closed => exact trivial
  | answered status body =>
      dsimp only
      split
      · exact trivial
      · split <;> exact trivial

/-- Every request that writes or removes the document of an id goes to a path. -/
def Addresses (server : IndexServer) (id path : String) : Prop :=
  (∀ document : IndexDocument, document.id = id →
      (server.upsert document).Sends fun request => request.path = path) ∧
    (server.delete id).Sends fun request => request.path = path

theorem addresses_iff {id path : String} :
    server.Addresses id path ↔ server.documentPath id = path := by
  refine ⟨fun addresses => sends_delete.mp addresses.2, fun same => ⟨?_, sends_delete.mpr same⟩⟩
  rintro document rfl
  exact sends_upsert.mpr same

/-! ## Paths -/

/-- The place of a document in its index: below the path of the address, three segments. -/
def place (server : IndexServer) (id : String) : String :=
  Path.text (server.address.segments ++ [server.index, "_doc", Path.segment id])

/-- What a request about an id has below the documents. -/
def leaf (id : String) : String := if id = "." then "" else Path.segment id

/-- What a request about an id has below the index. -/
def below (id : String) : List String := if id = ".." then [""] else ["_doc", leaf id]

theorem below_ne_nil (id : String) : below id ≠ [] := by
  unfold below
  split <;> exact List.cons_ne_nil _ _

theorem slash_notMem_below (id : String) : ∀ segment ∈ below id, '/' ∉ segment.toList := by
  have own : '/' ∉ (leaf id).toList := by
    unfold leaf
    split
    · decide
    · exact Path.slash_notMem_segment id
  unfold below
  split
  · simp
  · simp [own]

theorem leaf_injective {first second : String} (nonemptyFirst : first ≠ "")
    (nonemptySecond : second ≠ "") (same : leaf first = leaf second) : first = second := by
  have written : ∀ {id : String}, Path.segment id = "" → id = "" :=
    (Path.segment_eq_iff (by decide +kernel)).mp
  unfold leaf at same
  by_cases dotFirst : first = "." <;> by_cases dotSecond : second = "."
  · rw [dotFirst, dotSecond]
  · rw [if_pos dotFirst, if_neg dotSecond] at same
    exact absurd (written same.symm) nonemptySecond
  · rw [if_neg dotFirst, if_pos dotSecond] at same
    exact absurd (written same) nonemptyFirst
  · rw [if_neg dotFirst, if_neg dotSecond] at same
    exact Path.segment_injective same

/-- What is below the index tells which id it is for. -/
theorem below_injective {first second : String} (nonemptyFirst : first ≠ "")
    (nonemptySecond : second ≠ "") (same : below first = below second) : first = second := by
  unfold below at same
  by_cases dotsFirst : first = ".." <;> by_cases dotsSecond : second = ".."
  · rw [dotsFirst, dotsSecond]
  · rw [if_pos dotsFirst, if_neg dotsSecond] at same
    simp at same
  · rw [if_neg dotsFirst, if_pos dotsSecond] at same
    simp at same
  · rw [if_neg dotsFirst, if_neg dotsSecond] at same
    exact leaf_injective nonemptyFirst nonemptySecond
      (List.cons.inj (List.cons.inj same).2).1

section Paths

variable (named : ∀ c ∈ server.index.toList, Path.isNameChar c = true)

include named

theorem documentPath_eq (id : String) :
    server.documentPath id =
      Path.text ((server.address.segments ++ [server.index]) ++ below id) := by
  have notDot : server.index ≠ "." := by
    intro dot
    rw [dot] at named
    exact absurd (named '.' (by decide)) (by decide)
  have notDots : server.index ≠ ".." := by
    intro dots
    rw [dots] at named
    exact absurd (named '.' (by decide)) (by decide)
  have isDot : Path.segment id = "." ↔ id = "." := Path.segment_eq_iff (by decide +kernel)
  have isDots : Path.segment id = ".." ↔ id = ".." := Path.segment_eq_iff (by decide +kernel)
  unfold documentPath path Path.resolve
  rw [Path.segment_eq_self named, Path.walk_cons notDot notDots (List.cons_ne_nil _ _),
    Path.walk_cons (by decide) (by decide) (List.cons_ne_nil _ _), Path.walk]
  congr 1
  unfold below leaf
  by_cases dot : id = "."
  · have notDots : id ≠ ".." := by
      rw [dot]
      decide
    rw [if_pos (isDot.mpr dot), if_neg notDots, if_pos dot, List.append_assoc]
    rfl
  · rw [if_neg (mt isDot.mp dot), if_neg dot]
    by_cases dots : id = ".."
    · rw [if_pos (isDots.mpr dots), if_pos dots, List.dropLast_concat]
    · rw [if_neg (mt isDots.mp dots), if_neg dots, List.append_assoc]
      rfl

/-- A request about an id goes to its place exactly when the id is no dot and not two dots. -/
theorem documentPath_eq_place_iff (id : String) :
    server.documentPath id = server.place id ↔ id ≠ "." ∧ id ≠ ".." := by
  have place : server.place id = Path.text
      ((server.address.segments ++ [server.index]) ++ ["_doc", Path.segment id]) := by
    unfold place
    rw [List.append_assoc]
    rfl
  rw [documentPath_eq named, place]
  constructor
  · intro same
    have sameText := Path.text_append_inj (below_ne_nil id) (List.cons_ne_nil _ _) same
    constructor
    · rintro rfl
      exact absurd sameText (by decide +kernel)
    · rintro rfl
      exact absurd sameText (by decide +kernel)
  · rintro ⟨dot, dots⟩
    rw [below, if_neg dots, leaf, if_neg dot]

theorem documentPath_injective {first second : String} (nonemptyFirst : first ≠ "")
    (nonemptySecond : second ≠ "")
    (same : server.documentPath first = server.documentPath second) : first = second := by
  rw [documentPath_eq named, documentPath_eq named] at same
  have sameText := Path.text_append_inj (below_ne_nil first) (below_ne_nil second) same
  exact below_injective nonemptyFirst nonemptySecond
    (Path.text_injective (below_ne_nil first) (below_ne_nil second) (slash_notMem_below first)
      (slash_notMem_below second) sameText)

/-- Whatever a base and a name of an index, requests about an id go to the three segments of its own
place exactly when the id is no dot and not two dots: these lead to the collection of documents and
to the index itself. The place of an id is one segment below the documents, and no two ids are
addressed alike. -/
theorem addresses_place_iff :
    (∀ id, server.Addresses id (server.place id) ↔ id ≠ "." ∧ id ≠ "..") ∧
      (∀ id, '/' ∉ (Path.segment id).toList) ∧
      (∀ first second path, first ≠ "" → second ≠ "" → server.Addresses first path →
        server.Addresses second path → first = second) ∧
      server.Addresses "."
        (Path.text (server.address.segments ++ [server.index, "_doc", ""])) ∧
      server.Addresses ".." (Path.text (server.address.segments ++ [server.index, ""])) := by
  refine ⟨fun id => ?_, Path.slash_notMem_segment, ?_, ?_, ?_⟩
  · rw [addresses_iff]
    exact documentPath_eq_place_iff named id
  · intro first second path nonemptyFirst nonemptySecond addressesFirst addressesSecond
    exact documentPath_injective named nonemptyFirst nonemptySecond
      ((addresses_iff.mp addressesFirst).trans (addresses_iff.mp addressesSecond).symm)
  · rw [addresses_iff, documentPath_eq named, List.append_assoc]
    rfl
  · rw [addresses_iff, documentPath_eq named, List.append_assoc]
    rfl

end Paths

/-! ### An index of posts -/

def posts : IndexServer :=
  { address := { scheme := "http", host := "search", port := some 9200 }, index := "post_index" }

/-- An id with slashes and dots inside is addressed as one segment, and by no other id. -/
theorem addresses_of_dotsInside :
    (∀ c ∈ posts.index.toList, Path.isNameChar c = true) ∧
      posts.Addresses "../a b" "/post_index/_doc/..%2Fa%20b" ∧
      ∀ id, id ≠ "" → posts.Addresses id "/post_index/_doc/..%2Fa%20b" → id = "../a b" := by
  have named : ∀ c ∈ posts.index.toList, Path.isNameChar c = true :=
    List.all_eq_true.mp (by decide)
  obtain ⟨exact, _, injective, _⟩ := addresses_place_iff named
  have place : posts.place "../a b" = "/post_index/_doc/..%2Fa%20b" := by decide +kernel
  have own := (exact "../a b").mpr ⟨by decide, by decide⟩
  rw [place] at own
  exact ⟨named, own, fun id nonempty other => injective _ _ _ nonempty (by decide) other own⟩

/-- A removal of two dots asks for the removal of the whole index. -/
theorem addresses_index_of_dots :
    (posts.delete "..").Sends (fun request =>
      request.method = .delete ∧ request.path = "/post_index/") ∧
      ¬posts.Addresses ".." (posts.place "..") := by
  have path : posts.documentPath ".." = "/post_index/" := by decide +kernel
  refine ⟨sends_delete.mpr ⟨rfl, path⟩, fun addresses => ?_⟩
  have same := addresses_iff.mp addresses
  rw [path] at same
  exact absurd same (by decide +kernel)

end IndexServer

end DualStore
