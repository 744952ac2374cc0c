import Applik8s.OnlineProjection.PageProofs

/-! Following the cursors of a projection that does not change. It yields every member once, in the order of the
scores, exactly when members of one score stand in the store in the order of the collation, and every cursor on the
way can be made and taken back. -/
namespace Applik8s.OnlineProjection
open Lib Valkey List Option Nat
variable {Value : Type} {reader : Reader Value}

/-- The pages from a cursor on, up to the first page without one. -/
inductive Follows (reader : Reader Value) (keyspace : Keyspace) (options : PageOptions) :
    Option String → List (Page Value) → Prop
  | last {cursor : Option String} {page : Page Value}
      (read : reader.page keyspace { options with cursor } = .ok page) (ends : page.cursor = none) :
      Follows reader keyspace options cursor [page]
  | next {cursor : Option String} {page : Page Value} {following : String} {pages : List (Page Value)}
      (read : reader.page keyspace { options with cursor } = .ok page) (goes : page.cursor = some following)
      (rest : Follows reader keyspace options (some following) pages) :
      Follows reader keyspace options cursor (page :: pages)

namespace Projection
variable (projection : Projection reader) {partitions : List String}

/-- From the first page on, the pages end, and yield every member of the partitions once, in non-increasing order
of the scores, each with its value. -/
def Exact (partitions : List String) (options : PageOptions) : Prop :=
  ∃ pages, Follows reader projection.keyspace options none pages ∧
    (pages.flatMap Page.selected).Perm (projection.everything partitions) ∧
    (pages.flatMap Page.selected).Pairwise (fun left right => right.score ≤ left.score) ∧
    ∀ page ∈ pages, projection.Values page.selected page.items

/-- In the order of the store, no member stands before a member of the same score that the collation sorts
behind it. -/
def Collated (partitions : List String) : Prop :=
  ∀ partition ∈ partitions, (projection.keyspace.rows projection.generation partition).order.entries.Pairwise
    fun left right => left.score = right.score → reader.collation.compare left.member right.member ≠ .lt

def listing (partitions : List String) : List Candidate :=
  (projection.everything partitions).insertionSort reader.collation.Ahead

/-- How many members of each partition are among the first `count` of the listing. -/
def offsetsAt (partitions : List String) (count : Nat) : List Nat :=
  (List.range partitions.length).map fun index =>
    ((projection.listing partitions).take count).countP (·.partitionIndex = index)

/-- At every place within the listing, the cursor that leads there fits its bounds. -/
def Resumable (partitions : List String) : Prop :=
  ∀ count, 1 ≤ count → count < (projection.everything partitions).length →
    CursorFits projection.revision partitions (projection.offsetsAt partitions count)

theorem nextOffsets_getElem? (offs : List Nat) (selected : List Candidate) (index : Nat) :
    (nextOffsets offs selected)[index]? = offs[index]?.map (· + selected.countP (·.partitionIndex = index)) := by
  induction selected generalizing offs with
  | nil => simp [nextOffsets]
  | cons cand rest ih =>
    change (nextOffsets (offs.modify cand.partitionIndex (· + 1)) rest)[index]? = _
    rw [ih, getElem?_modify, countP_cons]
    by_cases same : cand.partitionIndex = index
    · cases offs[index]? with
      | none => simp
      | some offset => simp [same, add_comm, add_assoc]
    · simp [same]

@[simp] theorem offsetsAt_length (count : Nat) : (projection.offsetsAt parts count).length = parts.length := by
  simp [offsetsAt]

theorem offsetsAt_zero : projection.offsetsAt parts 0 = parts.map fun _ => 0 := by
  simp [offsetsAt, map_const']

theorem nextOffsets_offsetsAt (count limit : Nat) :
    nextOffsets (projection.offsetsAt parts count) (((projection.listing parts).drop count).take limit) =
      projection.offsetsAt parts (count + limit) := by
  refine ext_getElem? fun index => ?_
  rw [nextOffsets_getElem?]
  simp only [offsetsAt, List.getElem?_map, List.take_add, List.countP_append, Option.map_map]
  by_cases within : index < parts.length <;> simp [within]

/-! ### A projection in the order of the collation -/

theorem lane_eq (index : Nat) : (projection.everything parts).filter (·.partitionIndex = index) =
      (parts[index]?.map (projection.members · index)).getD [] := by
  rw [everything, laid_filter projection.own, if_pos (Nat.zero_le index), Nat.sub_zero]

theorem lane_ordered (collated : projection.Collated parts) (index : Nat) :
    ((projection.everything parts).filter (·.partitionIndex = index)).Pairwise reader.collation.Ahead := by
  rw [lane_eq]
  cases stands : parts[index]? with
  | none => exact .nil
  | some part =>
    let order := (projection.keyspace.rows projection.generation part).order
    have ordered := order.ordered.and (collated part (mem_of_getElem? stands))
    refine pairwise_map.mpr (ordered.imp fun both => (reader.collation.ahead_same).mpr ?_)
    rcases both.1 with more | ⟨same, _⟩
    · exact .inl more
    · exact .inr ⟨same, both.2 same⟩

theorem selection_offsetsAt (collated : projection.Collated parts) (count limit : Nat) :
    projection.selection parts (projection.offsetsAt parts count) limit =
        ((projection.listing parts).drop count).take limit ∧
      (limit < (projection.windows parts (projection.offsetsAt parts count) limit).length ↔
        count + limit < (projection.everything parts).length) := by
  refine page_of_windows reader.collation.ahead_total reader.collation.ahead_trans
    (projection.everything_nodup parts) (projection.lane_ordered collated)
    (projection.windows_sublist parts _ limit) fun index => ?_
  rw [windows_filter]
  by_cases within : index < parts.length
  · simp [offsetsAt, listing, within]
  · rw [lane_eq, getElem?_eq_none (not_lt.mp within)]
    simp

/-! ### Following the cursors -/

section
variable (opts : PageOptions) {limit : Nat} (accepted : normalizePagePartitions opts = .ok partitions)
  (limited : opts.limit = limit) (positive : 1 ≤ limit) (small : limit ≤ 500)
include accepted limited positive small

theorem follows_from (collated : projection.Collated partitions) (resumable : projection.Resumable partitions)
    (count : Nat) (cursor : Option String)
    (decoded : decodeCursor cursor projection.revision partitions = .ok (projection.offsetsAt partitions count)) :
    ∃ pages, Follows reader projection.keyspace opts cursor pages ∧
      pages.flatMap Page.selected = (projection.listing partitions).drop count ∧
      ∀ page ∈ pages, projection.Values page.selected page.items := by
  -- Along what is left of the listing behind the page.
  induction left : (projection.everything partitions).length - count using Nat.strong_induction_on
    generalizing count cursor with
  | _ left ih =>
    obtain ⟨selects, more⟩ := projection.selection_offsetsAt collated count limit
    obtain ⟨_, values, page⟩ := projection.page_decoded { opts with cursor } accepted limited positive small decoded
    rw [selects] at values page
    by_cases further : count + limit < (projection.everything partitions).length
    · have fits := resumable (count + limit) (by omega) further
      have encoded := encodeCursor_ok.mpr ⟨fits.1, rfl⟩
      rw [if_pos (more.mpr further), projection.nextOffsets_offsetsAt, encoded] at page
      have again := (decodeCursor_encodeCursor encoded (projection.offsetsAt_length _) _).mpr ⟨rfl, fits⟩
      obtain ⟨pages, follows, yields, all⟩ := ih _ (by omega) (count + limit) _ again rfl
      refine ⟨_ :: pages, .next page rfl follows, ?_, forall_mem_cons.mpr ⟨values, all⟩⟩
      rw [flatMap_cons, yields, ← drop_drop]
      exact take_append_drop limit _
    · rw [if_neg fun goes => further (more.mp goes)] at page
      refine ⟨[_], .last page rfl, ?_, forall_mem_singleton.mpr values⟩
      rw [flatMap_singleton]
      refine take_of_length_le ?_
      rw [length_drop, listing, length_insertionSort]
      omega

theorem page_told (read : reader.page projection.keyspace { opts with cursor } = .ok page) :
    ∃ offsets, decodeCursor cursor projection.revision partitions = .ok offsets ∧
      page.selected = projection.selection partitions offsets limit ∧
      (limit < (projection.windows partitions offsets limit).length → ∃ following, page.cursor = some following ∧
        encodeCursor projection.revision partitions (nextOffsets offsets page.selected) = .ok following) := by
  cases decoded : decodeCursor cursor projection.revision partitions with
  | error error =>
    rw [projection.page_refused { opts with cursor } accepted limited positive small decoded] at read
    cases read
  | ok offsets =>
    obtain ⟨_, _, page⟩ := projection.page_decoded { opts with cursor } accepted limited positive small decoded
    rw [page] at read
    refine ⟨offsets, rfl, ?_⟩
    by_cases more : limit < (projection.windows partitions offsets limit).length
    · rw [if_pos more] at read
      cases encoded : encodeCursor projection.revision partitions
        (nextOffsets offsets (projection.selection partitions offsets limit)) with
      | error error =>
        rw [encoded] at read
        cases read
      | ok following =>
        rw [encoded] at read
        cases read
        exact ⟨rfl, fun _ => ⟨following, rfl, encoded⟩⟩
    · rw [if_neg more] at read
      cases read
      exact ⟨rfl, fun goes => absurd goes more⟩

theorem follows_fits (single : limit = 1) (collated : projection.Collated partitions)
    (follows : Follows reader projection.keyspace opts cursor pages) (count : Nat)
    (decoded : decodeCursor cursor projection.revision partitions = .ok (projection.offsetsAt partitions count)) :
    ∀ place, count < place → place < (projection.everything partitions).length →
      CursorFits projection.revision partitions (projection.offsetsAt partitions place) := by
  induction follows generalizing count with
  | last read ends =>
    intro place later within
    obtain ⟨offsets, same, _, more⟩ := projection.page_told _ accepted limited positive small read
    cases decoded.symm.trans same
    obtain ⟨following, goes, _⟩ := more ((projection.selection_offsetsAt collated count limit).2.mpr (by omega))
    rw [ends] at goes
    cases goes
  | @next _ _ following _ read goes rest ih =>
    intro place later within
    obtain ⟨offsets, same, selects, more⟩ := projection.page_told _ accepted limited positive small read
    cases decoded.symm.trans same
    obtain ⟨selected, further⟩ := projection.selection_offsetsAt collated count limit
    obtain ⟨handed, is, encoded⟩ := more (further.mpr (by omega))
    obtain rfl : handed = following := some.inj (is.symm.trans goes)
    rw [selects, selected, projection.nextOffsets_offsetsAt] at encoded
    obtain ⟨offsets, taken⟩ : ∃ offsets, decodeCursor (some handed) projection.revision partitions = .ok offsets := by
      cases rest with
      | last read _ | next read _ _ =>
        obtain ⟨offsets, taken, _⟩ := projection.page_told _ accepted limited positive small read
        exact ⟨offsets, taken⟩
    obtain ⟨same, _⟩ := (decodeCursor_encodeCursor encoded (projection.offsetsAt_length _) _).mp taken
    rw [← same] at taken
    rcases lt_or_ge (count + limit) place with beyond | _
    · exact ih (count + limit) taken place beyond within
    · rwa [show place = count + limit by omega]

omit accepted limited positive small in
theorem follows_read {cursor : Option String} {pages : List (Page Value)}
    (follows : Follows reader projection.keyspace opts cursor pages) :
    ∀ page ∈ pages, ∃ cursor, reader.page projection.keyspace { opts with cursor } = .ok page := by
  induction follows with
  | last read _ => exact forall_mem_singleton.mpr ⟨_, read⟩
  | next read _ _ ih => exact forall_mem_cons.mpr ⟨⟨_, read⟩, ih⟩

end

/-! ### The converse, at a limit of one -/

/-- A member that the next of its partition is sorted ahead of is never selected, where the members before it stand
in order. -/
theorem not_selected {lane : List Candidate}
    (is : (projection.everything parts).filter (·.partitionIndex = index) = lane)
    (within : place + 1 < lane.length)
    (before : ∀ earlier, (bound : earlier + 1 < lane.length) → earlier + 1 ≤ place → reader.collation.Ahead lane[earlier] lane[earlier + 1])
    (inverted : ¬ reader.collation.Ahead lane[place] lane[place + 1]) :
    lane[place] ∉ projection.selection parts offs 1 := by
  intro selected
  have distinct := projection.everything_nodup parts
  have part : lane.Sublist (projection.everything parts) := by
    rw [← is]
    exact filter_sublist
  have indexed : ∀ cand ∈ lane, cand.partitionIndex = index := by
    intro cand among
    rw [← is] at among
    simpa using (mem_filter.mp among).2
  have differ : lane.Nodup := distinct.sublist part
  have windows := projection.windows_filter parts offs 1 index
  rw [is] at windows
  obtain ⟨rest, sorted⟩ : ∃ rest, (projection.windows parts offs 1).insertionSort reader.collation.Ahead =
      lane[place] :: rest := by
    unfold selection at selected
    cases shape : (projection.windows parts offs 1).insertionSort reader.collation.Ahead with
    | nil => simp [shape] at selected
    | cons head rest =>
      rw [shape, take_succ_cons, take_zero, mem_singleton] at selected
      exact ⟨rest, by rw [selected]⟩
  have leads : ∀ other, other ∈ projection.windows parts offs 1 → other ≠ lane[place] →
      Leads reader.collation.Ahead (projection.everything parts) lane[place] other := by
    have pairs := insertionSort_leads reader.collation.ahead_total reader.collation.ahead_trans distinct
      (projection.windows_sublist parts offs 1)
    rw [sorted] at pairs
    intro other among ne
    have among := (mem_insertionSort reader.collation.Ahead).mpr among
    rw [sorted] at among
    exact (pairwise_cons.mp pairs).1 other ((mem_cons.mp among).resolve_left ne)
  have reads : ∀ earlier, (bound : earlier < lane.length) → offs.getD index 0 ≤ earlier →
      earlier < offs.getD index 0 + 2 → lane[earlier] ∈ projection.windows parts offs 1 := by
    intro earlier bound above below
    refine (mem_filter.mp (?_ : lane[earlier] ∈ List.filter (·.partitionIndex = index) _)).1
    rw [windows]
    refine mem_of_getElem? (i := earlier - offs.getD index 0) ?_
    rw [List.getElem?_take_of_lt (by omega), List.getElem?_drop, Nat.add_sub_cancel' above, getElem?_eq_getElem bound]
  have here : lane[place] ∈ projection.windows parts offs 1 := by
    refine (mem_insertionSort reader.collation.Ahead).mp ?_
    rw [sorted]
    exact mem_cons_self
  -- The window that holds it begins with it, or with the member before it.
  obtain ⟨step, second, _⟩ : ∃ step, step < 2 ∧ offs.getD index 0 + step = place := by
    have held : lane[place] ∈ (lane.drop (offs.getD index 0)).take 2 := by
      rw [← windows]
      exact mem_filter.mpr ⟨here, by simpa using indexed _ (getElem_mem _)⟩
    obtain ⟨step, bound, same⟩ := mem_iff_getElem.mp held
    rw [length_take, length_drop] at bound
    rw [getElem_take, getElem_drop] at same
    exact ⟨step, by omega, (differ.getElem_inj_iff).mp same⟩
  match step, second with
  | 0, _ =>
    have behind := reads (place + 1) within (by omega) (by omega)
    exact inverted (leads _ behind fun same => absurd ((differ.getElem_inj_iff).mp same) (by omega)).1
  | 1, _ =>
    obtain ⟨earlier, rfl⟩ : ∃ earlier, place = earlier + 1 := ⟨offs.getD index 0, by omega⟩
    have ahead := reads earlier (by omega) (by omega) (by omega)
    have leads := (leads _ ahead fun same => absurd ((differ.getElem_inj_iff).mp same) (by omega)).2
      (before earlier (by omega) (by omega))
    have order := (pairwise_idxOf distinct).sublist part
    have := pairwise_iff_getElem.mp order earlier (earlier + 1) (by omega) (by omega) (by omega)
    omega

/-- Pages of one member each that yield everything show that the members stand in the order of the collation. -/
theorem collated_of_exact (opts : PageOptions) (accepted : normalizePagePartitions opts = .ok parts)
    (single : opts.limit = (1 : Nat)) (exact : projection.Exact parts opts) : projection.Collated parts := by
  obtain ⟨_, follows, perm, -, -⟩ := exact
  intro part among
  obtain ⟨index, bound, stands⟩ := mem_iff_getElem.mp among
  have lane : (projection.everything parts).filter (·.partitionIndex = index) = _ := projection.lane_eq index
  rw [getElem?_eq_getElem bound, stands, map_some, getD_some] at lane
  have adjacent : ∀ place, (within : place + 1 < (projection.members part index).length) →
      reader.collation.Ahead (projection.members part index)[place]
        (projection.members part index)[place + 1] := by
    intro place
    induction place using Nat.strong_induction_on with
    | _ place ih =>
      intro within
      by_contra inverted
      have never : ∀ offs, (projection.members part index)[place] ∉
          projection.selection parts offs 1 := fun offs => projection.not_selected lane within
        (fun earlier bound less => ih earlier less bound) inverted
      have listed : (projection.members part index)[place] ∈ projection.everything parts := by
        have whole : ∀ cand ∈ projection.members part index,
            cand ∈ projection.everything parts := by
          rw [← lane]
          exact fun cand held => (mem_filter.mp held).1
        exact whole _ (getElem_mem _)
      obtain ⟨page, member, selected⟩ := mem_flatMap.mp (perm.mem_iff.mpr listed)
      obtain ⟨_, read⟩ := projection.follows_read _ follows page member
      obtain ⟨offs, _, selects, _⟩ :=
        projection.page_told _ accepted single (le_refl 1) (by omega) read
      exact never offs (selects ▸ selected)
  have trans : IsTrans Candidate reader.collation.Ahead := ⟨fun _ _ _ => reader.collation.ahead_trans⟩
  have sorted := (isChain_iff_getElem.mpr adjacent).pairwise
  refine (pairwise_map.mp sorted).imp fun ahead same => ?_
  rcases (reader.collation.ahead_same).mp ahead with more | ⟨_, order⟩
  · exact absurd same more.ne'
  · exact order

theorem listing_scores : (projection.listing parts).Pairwise fun left right => right.score ≤ left.score := by
  have sorted := insertionSort_leads reader.collation.ahead_total reader.collation.ahead_trans
    (projection.everything_nodup parts) (.refl _)
  refine sorted.imp fun {left right} leads => ?_
  by_contra less
  have : compare right.score left.score = .gt := compare_gt_iff_gt.mpr (not_le.mp less)
  simp [Leads, Collation.Ahead, Collation.compareCandidates, compareLex, this] at leads

/-- Following the cursors yields every member exactly once, in the order of the scores, at every limit, exactly when
members of one score stand in the order of the collation and the cursors fit. -/
theorem pages_exact_iff (options : PageOptions) (accepted : normalizePagePartitions options = .ok partitions) :
    (∀ limit : Nat, 1 ≤ limit → limit ≤ 500 → projection.Exact partitions { options with limit }) ↔
      projection.Collated partitions ∧ projection.Resumable partitions := by
  constructor
  · intro exact
    have collated := projection.collated_of_exact { options with limit := (1 : Nat) } accepted rfl
      (exact 1 (le_refl 1) (by omega))
    obtain ⟨pages, follows, -⟩ := exact 1 (le_refl 1) (by omega)
    refine ⟨collated, fun count positive within => ?_⟩
    exact projection.follows_fits { options with limit := (1 : Nat) } accepted rfl (le_refl 1) (by omega) rfl collated follows 0
      (congrArg _ projection.offsetsAt_zero.symm) count positive within
  rintro ⟨collated, resumable⟩ limit positive small
  obtain ⟨pages, follows, yields, values⟩ := projection.follows_from { options with limit := limit }
    accepted rfl positive small collated resumable 0 none (congrArg _ projection.offsetsAt_zero.symm)
  rw [drop_zero] at yields
  refine ⟨pages, follows, ?_, ?_, values⟩
  · rw [yields]
    exact perm_insertionSort _ _
  · rw [yields]
    exact projection.listing_scores

end Projection

def caseless : Collation where
  compare := compareOn fun text => text.toList.map fun char => char.toLower.toNat
  lawful := inferInstance

def plainReader : Reader String where
  projection := "inbox"
  collation := caseless
  readValue := .ok

/-- A projection with one partition, whose values are the members themselves. -/
def plainProjection (order : SortedSet) : Projection plainReader where
  keyspace :=
    { active := some "g1", checkpoint := some 7, rebuilding := none
      rows := fun _ _ => { order, values := order.entries.map fun entry => (entry.member, entry.member) } }
  generation := "g1"
  checkpoint := 7
  active := rfl
  named := by decide
  reached := rfl
  safe := by decide
  held := by
    intro partition entry among
    have held : ((order.entries.map fun entry => (entry.member, entry.member)).find?
        (·.1 = entry.member)).isSome = true :=
      find?_isSome.mpr ⟨_, mem_map_of_mem among, by simp⟩
    obtain ⟨found, is⟩ := isSome_iff_exists.mp held
    exact ⟨found.2, by simp [Reader.itemOf, Record.get, is, plainReader]⟩

def plainOptions : PageOptions := { partition := some "all", limit := 1 }

/-- Two members of different scores are listed at every limit. -/
theorem pages_exact_of_scores :
    normalizePagePartitions plainOptions = .ok ["all"] ∧ ∀ limit : Nat, 1 ≤ limit → limit ≤ 500 →
      (plainProjection ⟨[⟨"a", 2⟩, ⟨"b", 1⟩], by decide, by decide⟩).Exact ["all"] { plainOptions with limit } := by
  refine ⟨rfl, (Projection.pages_exact_iff _ plainOptions rfl).mpr ⟨?_, ?_⟩⟩
  · intro partition _
    simp [plainProjection]
  intro count positive within
  obtain rfl : count = 1 := by
    change count < 2 at within
    omega
  decide +kernel

/-- `a` and `B` of one score: the store lists `a` first, the collation `B`, so that pages of one member yield `B`
twice and never `a`. -/
theorem pages_inexact_on_tie : ¬ ∀ limit : Nat, 1 ≤ limit → limit ≤ 500 →
      (plainProjection ⟨[⟨"a", 1⟩, ⟨"B", 1⟩], by decide, by decide⟩).Exact ["all"] { plainOptions with limit } := by
  intro exact
  have collated := Projection.collated_of_exact _ { plainOptions with limit := (1 : Nat) } rfl rfl
    (exact 1 (le_refl 1) (by omega))
  have pair := pairwise_cons.mp (collated "all" (by simp))
  exact pair.1 ⟨"B", 1⟩ (by simp) rfl (by decide)

end Applik8s.OnlineProjection
