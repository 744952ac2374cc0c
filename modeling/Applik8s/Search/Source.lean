import Mathlib.Data.List.Induction
import Applik8s.Search.Records

/-! What the change source, the hydration and the snapshots of a search projection answer. A
`Reckoning` says which answers are reckoned with; under a `Source`, they all tell of one history
of documents, position by position. -/
namespace Applik8s.Search
open List
variable {Document : Type}

/-- The hydrated documents of some identities, in their order. -/
def placed (identities : List String) (hydrated : List (HydratedDocument Document)) :
    List (HydratedDocument Document) :=
  identities.map fun identity => (candidate hydrated identity).getD ⟨identity, none, ""⟩

/-- The answers from outside that are reckoned with, and what makes the documents of a change
right under them. -/
structure Reckoning (Document : Type) where
  roots : CommittedChange → AffectedRoots → Prop
  documents : List String → Nat → List (HydratedDocument Document) → Prop
  opened : OpenedSnapshot → Prop
  page : String → Option String → SnapshotPage Document → Prop
  right : CommittedChange → List (HydratedDocument Document) → Prop
  right_of_answers : ∀ change affected hydrated, roots change affected → affected.complete = true →
    documents (sortStrings (distinctValues affected.identities)) change.commitPosition hydrated →
    right change (placed (sortStrings (distinctValues affected.identities)) hydrated)

def Reckoning.any : Reckoning Document where
  roots _ _ := True
  documents _ _ _ := True
  opened _ := True
  page _ _ _ := True
  right _ _ := True
  right_of_answers := by simp

section
def HydratedDocument.stored (hydrated : HydratedDocument Document) : Option (StoredDocument Document) :=
  hydrated.document.map (⟨·, hydrated.sourceProjectionRevision⟩)

variable (documents : Record (StoredDocument Document)) (identity : String)

theorem get_replaceDocument (hydrated : HydratedDocument Document) : (replaceDocument documents hydrated).get identity =
      if identity = hydrated.id then hydrated.stored else documents.get identity := by
  unfold replaceDocument HydratedDocument.stored
  cases hydrated.document with
  | none => exact Record.get_erase documents
  | some => exact Record.get_set documents

theorem candidate_id {identity : String} (is : candidate hydrated identity = some found) :
    found.id = identity ∧ found ∈ hydrated :=
  ⟨by simpa using find?_some is, mem_reverse.mp (mem_of_find?_eq_some is)⟩

theorem candidate_eq_none {identity : String} (missing : candidate hydrated identity = none)
    : ∀ item ∈ hydrated, item.id ≠ identity := by
  intro item member
  simpa using find?_eq_none.mp missing item (mem_reverse.mpr member)

theorem candidate_concat (earlier : List (HydratedDocument Document))
    (last : HydratedDocument Document) : candidate (earlier ++ [last]) identity =
      if last.id = identity then some last else candidate earlier identity := by
  unfold candidate
  rw [reverse_append, reverse_singleton, singleton_append, find?_cons]
  by_cases same : last.id = identity <;> simp [same]

theorem get_replaceDocuments (hydrated : List (HydratedDocument Document)) :
    (replaceDocuments documents hydrated).get identity =
      match candidate hydrated identity with
      | some found => found.stored
      | none => documents.get identity := by
  induction hydrated using List.reverseRecOn with
  | nil => rfl
  | append_singleton earlier last ih =>
    rw [replaceDocuments, foldl_append, foldl_cons, foldl_nil, get_replaceDocument, candidate_concat]
    by_cases same : last.id = identity
    · simp [same]
    · simp only [same, Ne.symm same, if_false]
      exact ih

theorem candidate_placed (identities : List String) (hydrated : List (HydratedDocument Document))
    : candidate (placed identities hydrated) identity = if identity ∈ identities then
        some ((candidate hydrated identity).getD ⟨identity, none, ""⟩) else none := by
  have named : ∀ sought, ((candidate hydrated sought).getD ⟨sought, none, ""⟩).id = sought := by
    intro sought
    cases found : candidate hydrated sought with
    | none => rfl
    | some held => exact (candidate_id found).1
  induction identities using List.reverseRecOn with
  | nil => rfl
  | append_singleton earlier last ih =>
    have split : placed (earlier ++ [last]) hydrated = placed earlier hydrated ++
        [(candidate hydrated last).getD ⟨last, none, ""⟩] := map_append
    rw [split, candidate_concat, named last, ih]
    by_cases same : last = identity
    · subst same
      simp
    · simp [same, Ne.symm same]

end

/-- One history of documents, and the snapshots taken of it: which documents the pages before a
cursor have delivered. -/
structure Source (Document : Type) where
  truth : Nat → String → Option (StoredDocument Document)
  frontier : String → Nat
  delivered : String → Option String → String → Prop
  delivered_none : ∀ snapshotId identity, ¬ delivered snapshotId none identity

namespace Source
variable (source : Source Document)

/-- The documents are those of the history at a position. -/
def Holds (documents : Record (StoredDocument Document)) (position : Nat) : Prop :=
  ∀ identity, documents.get identity = source.truth position identity

/-- Every document that a change touches is among its affected roots. -/
def Roots (change : CommittedChange) (affected : AffectedRoots) : Prop :=
  affected.complete = true → ∀ identity,
    source.truth (change.commitPosition - 1) identity ≠ source.truth change.commitPosition identity →
      identity ∈ affected.identities

/-- Hydration gives the documents at a position, restricted to the identities. -/
def Hydrates (identities : List String) (position : Nat)
    (hydrated : List (HydratedDocument Document)) : Prop :=
  ∀ identity ∈ identities, (candidate hydrated identity).bind HydratedDocument.stored = source.truth position identity

/-- A page holds documents of the snapshot; the last one holds all that are left. -/
def Pages (snapshotId : String) (cursor : Option String) (page : SnapshotPage Document) : Prop :=
  (∀ item ∈ page.items, item.stored = source.truth (source.frontier snapshotId) item.id) ∧
    if page.exhausted then ∀ identity, source.truth (source.frontier snapshotId) identity ≠ none →
      source.delivered snapshotId cursor identity ∨ ∃ item ∈ page.items, item.id = identity
    else ∀ identity, source.delivered snapshotId page.cursor identity ↔
      source.delivered snapshotId cursor identity ∨ ∃ item ∈ page.items, item.id = identity

/-- The hydrated documents take the history from the position before a change to its own. -/
def Right (change : CommittedChange) (hydrated : List (HydratedDocument Document)) : Prop :=
  ∀ identity, match candidate hydrated identity with
    | some found => found.stored = source.truth change.commitPosition identity
    | none => source.truth (change.commitPosition - 1) identity = source.truth change.commitPosition identity

theorem right_of_answers (roots : source.Roots change affected) (complete : affected.complete = true)
    (hydrates : source.Hydrates (sortStrings (distinctValues affected.identities)) change.commitPosition hydrated) :
    source.Right change (placed (sortStrings (distinctValues affected.identities)) hydrated) := by
  intro identity
  rw [candidate_placed]
  by_cases member : identity ∈ sortStrings (distinctValues affected.identities)
  · rw [if_pos member]
    have stored := hydrates identity member
    cases found : candidate hydrated identity with
    | none => simpa [found, HydratedDocument.stored] using stored
    | some held => simpa [found] using stored
  · rw [if_neg member]
    by_contra differ
    exact member (mem_sortStrings.mpr (mem_distinctValues.mpr (roots complete identity differ)))

def reckoning : Reckoning Document where
  roots := source.Roots
  documents := source.Hydrates
  opened opened := opened.frontier = source.frontier opened.snapshotId
  page := source.Pages
  right := source.Right
  right_of_answers _ _ _ := source.right_of_answers

variable {source} {documents : Record (StoredDocument Document)}

theorem Holds.apply (holds : source.Holds documents pos) (right : source.Right change hydrated)
    (contiguous : change.commitPosition = pos + 1) :
    source.Holds (replaceDocuments documents hydrated) change.commitPosition := by
  intro identity
  have here := right identity
  rw [get_replaceDocuments]
  cases found : candidate hydrated identity with
  | some held => simpa [found] using here
  | none =>
    simp only [found, contiguous, Nat.add_sub_cancel] at here
    rw [contiguous, ← here]
    exact holds identity

theorem Holds.reapply (holds : source.Holds documents change.commitPosition) (right : source.Right change hydrated) :
    source.Holds (replaceDocuments documents hydrated) change.commitPosition := by
  intro identity
  have here := right identity
  rw [get_replaceDocuments]
  cases found : candidate hydrated identity with
  | some held => simpa [found] using here
  | none => exact holds identity

/-- The documents that the pages before a cursor have delivered. -/
def Partly (source : Source Document) (snapshotId : String) (cursor : Option String)
    (documents : Record (StoredDocument Document)) : Prop :=
  ∀ identity, (source.delivered snapshotId cursor identity →
      documents.get identity = source.truth (source.frontier snapshotId) identity) ∧
    (¬ source.delivered snapshotId cursor identity → documents.get identity = none)

theorem partly_nil (source : Source Document) (snapshotId : String) : source.Partly snapshotId none [] :=
  fun identity => ⟨fun before => absurd before (source.delivered_none snapshotId identity), fun _ => rfl⟩

theorem Pages.get (pages : source.Pages snapshotId cursor page) (identity : String) :
    (replaceDocuments documents page.items).get identity = documents.get identity ∧
        (∀ item ∈ page.items, item.id ≠ identity) ∨ (replaceDocuments documents page.items).get identity =
          source.truth (source.frontier snapshotId) identity ∧ ∃ item ∈ page.items, item.id = identity := by
  rw [get_replaceDocuments]
  cases found : candidate page.items identity with
  | none => exact .inl ⟨rfl, candidate_eq_none found⟩
  | some held =>
    obtain ⟨rfl, member⟩ := candidate_id found
    exact .inr ⟨pages.1 held member, held, member, rfl⟩

theorem Partly.further (partly : source.Partly snapshotId cursor documents)
    (pages : source.Pages snapshotId cursor page) (more : page.exhausted = false) :
    source.Partly snapshotId page.cursor (replaceDocuments documents page.items) := by
  have next := pages.2
  simp only [more, Bool.false_eq_true, if_false] at next
  intro identity
  rcases pages.get identity with ⟨same, apart⟩ | ⟨told, inPage⟩
  · have still : source.delivered snapshotId page.cursor identity ↔ source.delivered snapshotId cursor identity := by
      rw [next identity]
      exact or_iff_left fun ⟨item, member, is⟩ => apart item member is
    rw [same, still]
    exact partly identity
  · exact ⟨fun _ => told, fun outside => absurd ((next identity).mpr (.inr inPage)) outside⟩

theorem Partly.last (partly : source.Partly snapshotId cursor documents) (pages : source.Pages snapshotId cursor page)
    (last : page.exhausted = true) :
    source.Holds (replaceDocuments documents page.items) (source.frontier snapshotId) := by
  have whole := pages.2
  simp only [last, if_true] at whole
  intro identity
  rcases pages.get identity with ⟨same, apart⟩ | ⟨told, -⟩
  · rw [same]
    by_cases before : source.delivered snapshotId cursor identity
    · exact (partly identity).1 before
    rw [(partly identity).2 before]
    by_contra present
    rcases whole identity (Ne.symm present) with delivered | ⟨item, member, is⟩
    · exact before delivered
    · exact apart item member is
  · exact told

end Source
end Applik8s.Search
