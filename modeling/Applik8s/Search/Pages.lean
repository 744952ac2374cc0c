import Applik8s.Lib.Program
import Applik8s.Search.Query

/-! The pages of one listing. A cursor is accepted only for the generation, checkpoint, principal
and query digest it was issued for; so while a generation keeps its documents at a checkpoint, the
pages that follow each other cut one sorted list into pieces. -/
namespace Applik8s.Search
open List
open Lib (bind_ok)
variable {engine : Engine} {provider : Provider engine} {sealing : Seal} {opts : SearchOptions}
  {now : Int} {query : Query} {admission : Admission} {view : View} {cursor : Option String}

theorem splitDots_pair (one : '.' ∉ first.toList) (two : '.' ∉ second.toList) :
    splitDots (first ++ "." ++ second) = [first, second] := by
  have joined : (first ++ "." ++ second).toList = List.intercalate ['.'] [first.toList, second.toList] := by
    simp [List.intercalate, List.intersperse]
  unfold splitDots
  rw [joined, splitOn_intercalate '.' (by simp [one, two]) (by simp)]
  simp

theorem encodeCursor_ne (sealing : Seal) (cursor : SearchCursor) : encodeCursor sealing cursor ≠ "" := by
  intro empty
  have := congrArg String.toList empty
  simp [encodeCursor] at this

theorem decodeCursor_encodeCursor (sealing : Seal) (cursor : SearchCursor) :
    decodeCursor sealing (encodeCursor sealing cursor) = .ok cursor := by
  obtain ⟨payloadThere, payloadPlain⟩ := sealing.payload_text cursor
  obtain ⟨signatureThere, signaturePlain⟩ := sealing.signature_text (sealing.payload cursor)
  unfold decodeCursor encodeCursor
  rw [splitDots_pair payloadPlain signaturePlain]
  simp [payloadThere, signatureThere, sealing.verifies_signature, sealing.parse_payload]

theorem validateCursor_ok {cursor : SearchCursor} (accepted : validateCursor cursor expected = .ok ()) :
    cursor = { expected with offset := cursor.offset } := by
  unfold validateCursor at accepted
  simp only [bind, Except.bind] at accepted
  split at accepted
  · cases accepted
  obtain ⟨_, _, _, _, _, _, authorizationVersion, queryDigest, offset⟩ := cursor
  repeat
    split at accepted
    · cases accepted
  simp_all

/-- The page of an issued cursor begins where the cursor says, and only under what it is bound
to. -/
theorem pageOffset_issued
    (accepted : pageOffset sealing opts view' admission' queryDigest' (some (encodeCursor sealing (bindings opts view admission queryDigest offset))) = .ok offset')
    : offset' = offset ∧ view'.generation = view.generation ∧ view'.checkpoint = view.checkpoint ∧
      admission'.principalId = admission.principalId ∧ admission'.contextDigest = admission.contextDigest ∧
      admission'.authorizationVersion = admission.authorizationVersion ∧ queryDigest' = queryDigest := by
  unfold pageOffset whenTruthy at accepted
  simp only [truthy, ne_eq, encodeCursor_ne, not_false_eq_true, decide_true, if_true,
    decodeCursor_encodeCursor, bind, Except.bind] at accepted
  split at accepted
  · cases accepted
  next same =>
  have agrees := validateCursor_ok same
  cases accepted
  simp only [bindings, SearchCursor.mk.injEq] at agrees
  obtain ⟨-, -, gen, mark, principalId, contextDigest, authorizationVersion, queryDigest, -⟩ := agrees
  exact ⟨rfl, gen.symm, mark.symm, principalId.symm, contextDigest.symm, authorizationVersion.symm, queryDigest.symm⟩

/-- The documents of a search in the order of the request. -/
def sortedRows (provider : Provider engine) (query : Query) (visible : List (Row engine)) :
    List (Row engine) :=
  engine.sort (compareSearchRows engine provider.normalization query.order) visible

def facetsOf (engine : Engine) (query : Query) (documents : List Fields) :
    Except Failure (List (String × List Bucket)) :=
  query.requestedFacets.mapM fun field => do
    return (field, ← facetBuckets engine documents field)

structure Succeeds (provider : Provider engine) (sealing : Seal) (options : SearchOptions)
    (query : Query) (admission : Admission) (view : View) (cursor : Option String)
    (result : SearchResult engine) (queryDigest : String) (offset limit : Nat)
    (visible : List (Row engine)) : Prop where
  valid : provider.validate options query admission = .ok ()
  digested : digest engine query.value = .ok queryDigest
  begins : pageOffset sealing options view admission queryDigest cursor = .ok offset
  seen : provider.visible options view.documents query admission = .ok visible
  positive : 1 ≤ limit
  hits : result.hits = (((sortedRows provider query visible).drop offset).take limit).map (Row.hit query)
  follows : result.cursor =
    let nextOffset := offset + (((sortedRows provider query visible).drop offset).take limit).length
    if nextOffset < (sortedRows provider query visible).length then
      some (encodeCursor sealing (bindings options view admission queryDigest nextOffset))
    else none
  counted : facetsOf engine query ((sortedRows provider query visible).map (·.document)) = .ok result.facets

theorem boundedInteger_ok (accepted : boundedInteger value low high name = .ok num) : low ≤ num := by
  unfold boundedInteger at accepted
  split at accepted
  · next within =>
    cases accepted
    simp only [Bool.and_eq_true, decide_eq_true_eq] at within
    exact within.1.2
  · cases accepted

theorem search_ok (done : search provider sealing opts now query admission view cursor = .ok result) :
    ∃ queryDigest offset limit visible,
      Succeeds provider sealing opts query admission view cursor result queryDigest offset limit visible := by
  obtain ⟨_, valid, done⟩ := bind_ok done
  obtain ⟨queryDigest, digested, done⟩ := bind_ok done
  obtain ⟨offset, begins, done⟩ := bind_ok done
  obtain ⟨visible, seen, done⟩ := bind_ok done
  obtain ⟨limit, bounded, done⟩ := bind_ok done
  obtain ⟨_, counted, done⟩ := bind_ok done
  obtain ⟨_, -, done⟩ := bind_ok done
  cases done
  exact ⟨queryDigest, offset, limit, visible, valid, digested, begins, seen,
    boundedInteger_ok bounded, rfl, rfl, counted⟩

section
/-- A listing: a call without a cursor, then one with each cursor that is returned, to the end;
every call comes in the state of its moment, at its own time. -/
def Listed {σ : Type} (call : Int → σ → Option String → Except Failure (SearchResult engine)) :
    Option String → List (Int × σ) → List (SearchResult engine) → Prop
  | cursor, (now, state) :: moments, result :: results => call now state cursor = .ok result ∧
      match result.cursor with
      | none => moments = [] ∧ results = []
      | some further => Listed call (some further) moments results
  | _, _, _ => False

theorem take_append_rest {α : Type} (items : List α) (limit : Nat) :
    items.take limit ++ items.drop (items.take limit).length = items := by
  rcases Nat.le_total limit items.length with within | beyond
  · rw [length_take_of_le within, take_append_drop]
  · rw [take_of_length_le beyond, drop_length, append_nil]

variable {σ : Type} {call : Int → σ → Option String → Except Failure (SearchResult engine)}
  {viewOf : σ → Except Failure View}

theorem page_append
    (succeeds : Succeeds provider sealing opts query admission view cursor result queryDigest offset limit visible)
    (behind : rest = match result.cursor with | none => [] | some _ => ((sortedRows provider query visible).drop (offset + (((sortedRows provider query visible).drop offset).take limit).length)).map (Row.hit query))
    : result.hits ++ rest = ((sortedRows provider query visible).drop offset).map (Row.hit query) := by
  have next := succeeds.follows
  dsimp only at next
  rw [succeeds.hits, behind]
  split at next
  · rw [next, ← map_append, ← drop_drop, take_append_rest]
  next last =>
  rw [next, append_nil, take_of_length_le]
  rw [length_take, length_drop] at last
  rw [length_drop]
  omega

variable
  (searches : ∀ now state cursor result, call now state cursor = .ok result → ∃ view, viewOf state = .ok view ∧ search provider sealing opts now query admission view cursor = .ok result)
include searches

theorem listed_from (digested : digest engine query.value = .ok queryDigest)
    (seen : provider.visible opts view.documents query admission = .ok visible)
    (still : ∀ later ∈ moments, ∀ view', viewOf later.2 = .ok view' → view'.generation = view.generation → view'.checkpoint = view.checkpoint → view'.documents = view.documents)
    (listed : Listed call (some (encodeCursor sealing (bindings opts view admission queryDigest offset))) moments results)
    : results.flatMap (·.hits) = ((sortedRows provider query visible).drop offset).map (Row.hit query) ∧
      ∀ result ∈ results, facetsOf engine query ((sortedRows provider query visible).map (·.document)) =
          .ok result.facets := by
  induction moments generalizing results offset with
  | nil => cases results <;> exact listed.elim
  | cons first moments ih =>
    obtain ⟨now, state⟩ := first
    cases results with
    | nil => exact listed.elim
    | cons result =>
      obtain ⟨done, rest⟩ := listed
      obtain ⟨view', viewed, done⟩ := searches now state _ result done
      obtain ⟨_, _, _, _, succeeds⟩ := search_ok done
      obtain ⟨rfl, gen, mark, -⟩ := pageOffset_issued succeeds.begins
      cases digested.symm.trans succeeds.digested
      have same := still (now, state) mem_cons_self view' viewed gen mark
      have visibleIs := succeeds.seen
      rw [same] at visibleIs
      cases seen.symm.trans visibleIs
      have bound : bindings opts view' admission queryDigest = bindings opts view admission
          queryDigest := by
        funext offset
        simp [bindings, gen, mark]
      have next := succeeds.follows
      dsimp only at next
      rw [bound] at next
      rw [flatMap_cons]
      split at next
      · rw [next] at rest
        obtain ⟨hits, facets⟩ := ih (fun later member => still later (mem_cons_of_mem _ member)) rest
        refine ⟨page_append succeeds (by rw [next, hits]), ?_⟩
        intro other member
        rcases mem_cons.mp member with rfl | member
        · exact succeeds.counted
        · exact facets other member
      · rw [next] at rest
        obtain ⟨-, rfl⟩ := rest
        refine ⟨page_append succeeds (by rw [next]; rfl), ?_⟩
        intro other member
        rw [mem_singleton.mp member]
        exact succeeds.counted

theorem listed_whole
    (still : ∀ later ∈ moments, ∀ view view', viewOf state = .ok view → viewOf later.2 = .ok view' → view'.generation = view.generation → view'.checkpoint = view.checkpoint → view'.documents = view.documents)
    (listed : Listed call none ((now, state) :: moments) results) : ∃ view visible, viewOf state = .ok view ∧
      provider.validate opts query admission = .ok () ∧
      provider.visible opts view.documents query admission = .ok visible ∧
      results.flatMap (·.hits) = (sortedRows provider query visible).map (Row.hit query) ∧ ∀ result ∈ results,
        facetsOf engine query ((sortedRows provider query visible).map (·.document)) = .ok result.facets := by
  cases results with
  | nil => exact listed.elim
  | cons result =>
    obtain ⟨done, rest⟩ := listed
    obtain ⟨view, viewed, done⟩ := searches now state none result done
    obtain ⟨_, offset, _, visible, succeeds⟩ := search_ok done
    obtain rfl : 0 = offset := Except.ok.inj succeeds.begins
    refine ⟨view, visible, viewed, succeeds.valid, succeeds.seen, ?_⟩
    have next := succeeds.follows
    dsimp only at next
    rw [flatMap_cons]
    split at next
    · rw [next] at rest
      obtain ⟨hits, facets⟩ := listed_from searches succeeds.digested succeeds.seen
        (fun later member view' viewed' => still later member view view' viewed viewed') rest
      refine ⟨page_append succeeds (by rw [next, hits]), ?_⟩
      intro other member
      rcases mem_cons.mp member with rfl | member
      · exact succeeds.counted
      · exact facets other member
    · rw [next] at rest
      obtain ⟨-, rfl⟩ := rest
      refine ⟨page_append succeeds (by rw [next]; rfl), ?_⟩
      intro other member
      rw [mem_singleton.mp member]
      exact succeeds.counted

end

def under (engine : Engine) (key : String) (value : Value) : Bool :=
  match digest engine value with
  | .ok digested => digested = key
  | .error _ => false

structure Tallies (engine : Engine) (values : List Value) (counts : List Bucket) : Prop where
  count : ∀ bucket ∈ counts, bucket.count = values.countP (under engine bucket.key)
  value : ∀ bucket ∈ counts, bucket.value ∈ values ∧ under engine bucket.key bucket.value = true
  all : ∀ value ∈ values, ∃ bucket ∈ counts, under engine bucket.key value = true
  distinct : (counts.map Bucket.key).Nodup

theorem under_self (digested : digest engine value = .ok key) : under engine key value = true := by
  simp [under, digested]

theorem under_other (digested : digest engine value = .ok key) (differ : key ≠ other)
    : under engine other value = false := by
  simp [under, digested, differ]

theorem Tallies.add {value : Value} (tallies : Tallies engine values counts)
    (digested : digest engine value = .ok key) :
    Tallies engine (values ++ [value]) (countValue counts key value) := by
  unfold countValue
  by_cases known : counts.any (·.key = key) = true
  · rw [if_pos known]
    have names : (counts.map fun bucket => if bucket.key = key then
        { bucket with count := bucket.count + 1 } else bucket).map Bucket.key =
        counts.map Bucket.key := by
      rw [map_map]
      apply map_congr_left
      intro bucket _
      dsimp only [Function.comp]
      split <;> rfl
    refine ⟨?_, ?_, ?_, names ▸ tallies.distinct⟩
    · intro bucket member
      obtain ⟨before, is, rfl⟩ := mem_map.mp member
      by_cases same : before.key = key
      · rw [if_pos same]
        simp [countP_append, tallies.count before is, same, under_self digested]
      · rw [if_neg same]
        simp [countP_append, tallies.count before is, under_other digested (Ne.symm same)]
    · intro bucket member
      obtain ⟨before, is, rfl⟩ := mem_map.mp member
      obtain ⟨held, counted⟩ := tallies.value before is
      split <;> exact ⟨mem_append_left _ held, counted⟩
    intro other member
    have kept : ∀ bucket ∈ counts, ∃ after ∈ counts.map (fun bucket => if bucket.key = key then
        { bucket with count := bucket.count + 1 } else bucket), after.key = bucket.key := by
      intro bucket is
      refine ⟨_, mem_map.mpr ⟨bucket, is, rfl⟩, ?_⟩
      split <;> rfl
    rcases mem_append.mp member with before | last
    · obtain ⟨bucket, is, counted⟩ := tallies.all other before
      obtain ⟨after, held, same⟩ := kept bucket is
      exact ⟨after, held, same ▸ counted⟩
    obtain rfl := mem_singleton.mp last
    obtain ⟨bucket, is, same⟩ := any_eq_true.mp known
    obtain ⟨after, held, named⟩ := kept bucket is
    exact ⟨after, held, by rw [named, of_decide_eq_true same]; exact under_self digested⟩
  · rw [if_neg known]
    have fresh : ∀ bucket ∈ counts, bucket.key ≠ key := by
      intro bucket is same
      exact known (any_eq_true.mpr ⟨bucket, is, decide_eq_true same⟩)
    refine ⟨?_, ?_, ?_, ?_⟩
    · intro bucket member
      rcases mem_append.mp member with before | last
      · simp [countP_append, tallies.count bucket before, under_other digested (Ne.symm (fresh bucket before))]
      obtain rfl := mem_singleton.mp last
      have none : values.countP (under engine key) = 0 := by
        rw [countP_eq_zero]
        intro other held counted
        obtain ⟨bucket, is, named⟩ := tallies.all other held
        unfold under at counted named
        split at counted
        · next digestedOther same =>
          rw [same] at named
          exact fresh bucket is ((of_decide_eq_true named).symm.trans (of_decide_eq_true counted))
        · cases counted
      simp [countP_append, none, under_self digested]
    · intro bucket member
      rcases mem_append.mp member with before | last
      · obtain ⟨held, counted⟩ := tallies.value bucket before
        exact ⟨mem_append_left _ held, counted⟩
      · obtain rfl := mem_singleton.mp last
        exact ⟨mem_append_right _ mem_cons_self, under_self digested⟩
    · intro other member
      rcases mem_append.mp member with before | last
      · obtain ⟨bucket, is, counted⟩ := tallies.all other before
        exact ⟨bucket, mem_append_left _ is, counted⟩
      · obtain rfl := mem_singleton.mp last
        exact ⟨_, mem_append_right _ mem_cons_self, under_self digested⟩
    · rw [map_append, nodup_append]
      refine ⟨tallies.distinct, by simp, ?_⟩
      intro name member other last same
      obtain ⟨bucket, is, rfl⟩ := mem_map.mp member
      simp only [map_cons, map_nil, mem_singleton] at last
      exact fresh bucket is (same.trans last)

theorem facetBuckets_tallies (done : facetBuckets engine docs field = .ok buckets) :
    Tallies engine (docs.flatMap (facetValues · field)) buckets := by
  obtain ⟨counts, folded, done⟩ := bind_ok done
  cases done
  have tallies : Tallies engine (docs.flatMap (facetValues · field)) counts := by
    generalize docs.flatMap (facetValues · field) = values at folded
    have run : ∀ (later seen : List Value) (before : List Bucket), Tallies engine seen before →
        later.foldlM (fun counts value => do
          let key ← digest engine value
          return countValue counts key value) before = .ok counts →
        Tallies engine (seen ++ later) counts := by
      intro later
      induction later with
      | nil =>
        intro seen before tallies folded
        cases folded
        rwa [append_nil]
      | cons value later ih =>
        intro seen before tallies folded
        rw [foldlM_cons] at folded
        obtain ⟨_, counted, folded⟩ := bind_ok folded
        obtain ⟨key, digested, counted⟩ := bind_ok counted
        cases counted
        have := ih (seen ++ [value]) _ (tallies.add digested) folded
        rwa [append_assoc] at this
    exact run values [] [] ⟨by simp, by simp, by simp, by simp⟩ folded
  have perm := engine.sort_perm (fun left right : Bucket =>
    if right.count < left.count then .lt
    else if left.count < right.count then .gt
    else engine.localeCompare (engine.asText left.value) (engine.asText right.value)) counts
  exact ⟨fun bucket member => tallies.count bucket (perm.mem_iff.mp member),
    fun bucket member => tallies.value bucket (perm.mem_iff.mp member),
    fun value member => by
      obtain ⟨bucket, is, counted⟩ := tallies.all value member
      exact ⟨bucket, perm.mem_iff.mpr is, counted⟩,
    (perm.map Bucket.key).nodup_iff.mpr tallies.distinct⟩

end Applik8s.Search
