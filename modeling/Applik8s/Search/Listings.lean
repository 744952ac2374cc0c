import Applik8s.Search.Bindings
import Applik8s.Search.Deterministic
import Applik8s.Search.Generations

/-! Listings while the projection is at work. Between the calls of a listing any steps of the
runtime may come; while they leave the listed generation to the changes that advance it, the pages
are one listing of one projection state. -/
namespace Applik8s.Search
open Lib List Option Bool
open Value (identical scalar)

section
variable {engine : Engine} {query : Query} {admission : Admission}

/-- The documents that the deterministic runtime is asked for. -/
def deterministicSatisfies (engine : Engine) (options : SearchOptions) (query : Query)
    (admission : Admission) (document : Fields) : Bool :=
  matchesWhere engine .deterministic document admission.conditions
    && matchesWhere engine .deterministic document query.callerWhere
    && (query.text.isNone || engine.above (scoreDocument engine options.fields document query.text) engine.zero)

theorem deterministic_visible (seen : (deterministicProvider engine).visible opts docs query admission = .ok visible) :
    visible = (docs.filter fun entry =>
      deterministicSatisfies engine opts query admission entry.2.document).map
        (row engine opts.fields query.text) := by
  unfold deterministicProvider at seen
  dsimp only at seen
  split at seen
  · cases seen
  cases seen
  rw [List.filter_map, List.filter_filter]
  congr 1
  apply filter_congr
  intro entry _
  exact and_comm _ _

/-- `@>` finds a scalar member: `'{"a": 1}' @> jsonb_build_object('a', 1)`. -/
def FindsMembers (database : Database) : Prop :=
  ∀ (document : Fields) (field : String) (value : Value), value.scalar = true →
    document.get field = some value → database.contains document field value = true

/-- The type of comparisons has arrays under `in`. -/
def listsCandidates (conditions : Record Value) : Bool :=
  conditions.all fun condition =>
    match condition.2 with
    | .object operations =>
      match Record.get operations "in" with
      | some (.array _) => true
      | some _ => false
      | none => true
    | _ => true

/-- What a `jsonb` column gives back for a member, outside of arrays and objects. -/
def Value.storable : Value → Bool
  | .undefined => false
  | .date _ => false
  | .number (.finite _) => true
  | .number _ => false
  | _ => true

/-- The document is one of a `jsonb` column. -/
def Storable (document : Fields) : Prop := ∀ member ∈ document, member.2.storable = true

/-- The documents that the PostgreSQL runtime is asked for. -/
def postgresSatisfies (engine : Engine) (database : Database) (query : Query) (admission : Admission)
    (document : Fields) : Bool :=
  query.text.all (database.matchesText document)
    && (matchesWhere engine (.postgres engine) document admission.conditions
      && matchesWhere engine (.postgres engine) document query.callerWhere)

theorem identical_storable {held : Value} (storable : held.storable = true) (same : held.identical value = true)
    : value = held ∧ held.scalar = true := by
  cases held with
  | null => cases value <;> simp_all [identical, scalar]
  | boolean truth => cases value <;> simp_all [identical, scalar]
  | string text => cases value <;> simp_all [identical, scalar]
  | number num =>
    cases num with
    | finite num => cases value <;> simp_all [identical, scalar]
    | _ => cases storable
  | undefined => cases storable
  | date => cases storable
  | array items => cases value <;> cases same
  | object => cases value <;> cases same

theorem contains_of_same (finds : FindsMembers db) (storable : Storable doc) (defined : value ≠ .undefined)
    (equal : same (.postgres engine) (doc.read field) value = true) :
    db.contains doc field ((Normalization.postgres engine).equality value) = true := by
  unfold same Fields.read at equal
  cases found : doc.get field with
  | none =>
    rw [found] at equal
    cases value with
    | undefined => exact absurd rfl defined
    | _ => cases equal
  | some held =>
    have kept := storable _ (Record.mem_of_get found)
    have same : (Normalization.postgres engine).equality held = held := by
      cases held with
      | date => cases kept
      | _ => rfl
    rw [found, getD_some, same] at equal
    obtain ⟨is, scalar⟩ := identical_storable kept equal
    rw [is]
    exact finds doc field held scalar found

theorem equal_of_matches {comparison : Value}
    (lists : ∀ ops operand, comparison = .object ops → Record.get ops "in" = some operand → ∃ cands, operand = .array cands)
    (indexed : indexedEqualityValues comparison = some values)
    (accepted : matchesComparison engine (.postgres engine) actual comparison = true) :
    ∃ value ∈ values, same (.postgres engine) actual value = true := by
  cases comparison with
  | object ops =>
    simp only [matchesComparison, not_eq_true', or_eq_false_iff] at accepted
    cases equality : Record.get ops "eq" with
    | some operand =>
      simp only [indexedEqualityValues, equality, some.injEq] at indexed
      subst indexed
      refine ⟨operand, mem_cons_self, ?_⟩
      simpa [refutes, equality] using accepted.1.1.1.1.1.1
    | none =>
      cases listed : Record.get ops "in" with
      | none => simp [indexedEqualityValues, equality, listed] at indexed
      | some operand =>
        obtain ⟨cands, rfl⟩ := lists ops operand rfl listed
        simp only [indexedEqualityValues, equality, listed, some.injEq] at indexed
        subst indexed
        have found : cands.any (same (.postgres engine) actual) = true := by
          simpa [refutes, listed] using accepted.1.1.1.1.2
        exact any_eq_true.mp found
  | _ =>
    simp only [indexedEqualityValues, some.injEq] at indexed
    subst indexed
    exact ⟨_, mem_cons_self, accepted⟩

theorem indexedWhere_of_matches (finds : FindsMembers db) (storable : Storable doc)
    (lists : listsCandidates conds = true) (serial : serializable conds = true)
    (accepted : matchesWhere engine (.postgres engine) doc conds = true) :
    indexedWhere engine db conds doc = true := by
  simp only [listsCandidates, serializable, matchesWhere, indexedWhere, List.all_eq_true] at *
  intro cond member
  cases indexed : indexedEqualityValues cond.2 with
  | none => rfl
  | some values =>
    have list : ∀ ops operand, cond.2 = .object ops →
        Record.get ops "in" = some operand → ∃ cands, operand = .array cands := by
      intro ops operand is listed
      have := lists cond member
      rw [is] at this
      dsimp only at this
      rw [listed] at this
      cases operand with
      | array cands => exact ⟨cands, rfl⟩
      | _ => cases this
    obtain ⟨value, among, equal⟩ := equal_of_matches list indexed (accepted cond member)
    have defined : value ≠ .undefined := by
      rintro rfl
      have := serial cond member
      rw [indexed] at this
      exact absurd (this _ among) (by simp)
    exact List.any_eq_true.mpr ⟨value, among, contains_of_same finds storable defined equal⟩

theorem postgres_visible (finds : FindsMembers db) (storable : ∀ entry ∈ docs, Storable entry.2.document)
    (lists : listsCandidates admission.conditions = true) (lists' : listsCandidates query.callerWhere = true)
    (seen : (postgresProvider engine db).visible opts docs query admission = .ok visible) :
    visible.Perm ((docs.filter fun entry =>
      postgresSatisfies engine db query admission entry.2.document).map
        (row engine opts.fields query.text)) := by
  unfold postgresProvider at seen
  dsimp only at seen
  split at seen
  · cases seen
  next serial =>
  simp only [not_eq_true', not_eq_false, and_eq_true] at serial
  split at seen
  · cases seen
  cases seen
  refine (((db.ordered_perm _).map _).filter _).trans (List.Perm.of_eq ?_)
  rw [List.filter_map, List.filter_filter]
  congr 1
  apply filter_congr
  intro entry member
  have found := storable entry member
  simp only [postgresSatisfies, row, Function.comp]
  cases text : query.text.all (db.matchesText entry.2.document) with
  | false => simp
  | true =>
    cases first : matchesWhere engine (.postgres engine) entry.2.document admission.conditions with
    | false => simp
    | true =>
      cases second : matchesWhere engine (.postgres engine) entry.2.document query.callerWhere with
      | false => simp
      | true =>
        simp [indexedWhere_of_matches finds found lists serial.1 first,
          indexedWhere_of_matches finds found lists' serial.2 second]

end

section
variable {engine : Engine}

/-- Values that are counted apart: scalars, no two of them of one hash. -/
structure ToldApart (engine : Engine) (values : List Value) : Prop where
  scalar : ∀ value ∈ values, value.scalar = true
  hashes : ∀ value ∈ values, ∀ other ∈ values,
    engine.sha256 (stableJson engine value) = engine.sha256 (stableJson engine other) →
      stableJson engine value = stableJson engine other

/-- Every value has a bucket, and a bucket counts one value. -/
structure Counts (values : List Value) (buckets : List Bucket) : Prop where
  count : ∀ bucket ∈ buckets, bucket.value ∈ values ∧ bucket.count = values.countP (·.identical bucket.value)
  all : ∀ value ∈ values, ∃ bucket ∈ buckets, bucket.value = value
  distinct : (buckets.map Bucket.value).Nodup

theorem Counts.perm (counts : Counts values buckets) (perm : values.Perm values') : Counts values' buckets := by
  refine ⟨fun bucket member => ?_, fun value member => counts.all value (perm.mem_iff.mpr member), counts.distinct⟩
  obtain ⟨held, count⟩ := counts.count bucket member
  exact ⟨perm.mem_iff.mp held, count.trans (perm.countP_eq _)⟩

theorem identical_self {value : Value} (scalar : value.scalar = true) : value.identical value = true := by
  rcases scalar_cases scalar with rfl | ⟨held, rfl⟩ | ⟨held, rfl⟩ | ⟨_, rfl⟩ <;>
    simp [identical]

theorem identical_scalar {value : Value} (scalar : value.scalar = true) (same : value.identical other = true)
    : value = other := by
  rcases scalar_cases scalar with rfl | ⟨held, rfl⟩ | ⟨held, rfl⟩ | ⟨_, rfl⟩ <;>
    cases other <;> simp_all [identical]

theorem digest_scalar (scalar : value.scalar = true) :
    digest engine value = .ok (engine.sha256 (stableJson engine value)) := by
  rcases scalar_cases scalar with rfl | ⟨held, rfl⟩ | ⟨held, rfl⟩ | ⟨_, rfl⟩ <;> rfl

theorem under_scalar (scalar : value.scalar = true) :
    under engine key value = true ↔ engine.sha256 (stableJson engine value) = key := by
  rw [under, digest_scalar scalar]
  simp

theorem ToldApart.counts (apart : ToldApart engine values) (tallies : Tallies engine values buckets)
    : Counts values buckets := by
  have key : ∀ bucket ∈ buckets, engine.sha256 (stableJson engine bucket.value) = bucket.key := by
    intro bucket member
    obtain ⟨held, counted⟩ := tallies.value bucket member
    exact (under_scalar (apart.scalar _ held)).mp counted
  have same : ∀ bucket ∈ buckets, ∀ value ∈ values, under engine bucket.key value = true ↔ value = bucket.value := by
    intro bucket member value here
    have held := (tallies.value bucket member).1
    rw [under_scalar (apart.scalar _ here), ← key bucket member]
    constructor
    · intro hashes
      exact scalar_inj (apart.scalar _ here) (apart.scalar _ held) (apart.hashes value here bucket.value held hashes)
    · rintro rfl
      rfl
  refine ⟨fun bucket member => ⟨(tallies.value bucket member).1, ?_⟩, fun value member => ?_, ?_⟩
  · rw [tallies.count bucket member]
    apply countP_congr
    intro value here
    rw [same bucket member value here]
    constructor
    · rintro rfl
      exact identical_self (apart.scalar _ here)
    · exact identical_scalar (apart.scalar _ here)
  · obtain ⟨bucket, is, counted⟩ := tallies.all value member
    exact ⟨bucket, is, ((same bucket is value member).mp counted).symm⟩
  · have keys : buckets.map Bucket.key =
        (buckets.map Bucket.value).map fun value => engine.sha256 (stableJson engine value) := by
      rw [List.map_map]
      exact map_congr_left fun bucket member => (key bucket member).symm
    exact List.Nodup.of_map _ (keys ▸ tallies.distinct)

theorem facetsOf_ok (done : facetsOf engine query docs = .ok facets) : facets.map Prod.fst = query.requestedFacets ∧
      ∀ facet ∈ facets, facetBuckets engine docs facet.1 = .ok facet.2 := by
  unfold facetsOf at done
  generalize query.requestedFacets = names at done ⊢
  induction names generalizing facets with
  | nil =>
    cases done
    simp
  | cons name names ih =>
    rw [mapM_cons] at done
    obtain ⟨facet, computed, done⟩ := bind_ok done
    obtain ⟨_, counted, named⟩ := bind_ok computed
    cases named
    obtain ⟨_, rest, done⟩ := bind_ok done
    cases done
    obtain ⟨same, each⟩ := ih rest
    refine ⟨by rw [map_cons, same], ?_⟩
    intro facet member
    rcases mem_cons.mp member with rfl | member
    · exact counted
    · exact each facet member

end

section
variable {engine : Engine}

def askedRows (engine : Engine) (options : SearchOptions) (query : Query)
    (satisfies : Fields → Bool) (documents : Record (StoredDocument Fields)) : List (Row engine) :=
  (documents.filter fun entry => satisfies entry.2.document).map (row engine options.fields query.text)

/-- The pages list the documents that are asked for, each once and in order, and every page counts
them all. -/
structure Lists (normalization : Normalization) (options : SearchOptions) (query : Query)
    (satisfies : Fields → Bool) (documents : Record (StoredDocument Fields))
    (results : List (SearchResult engine)) : Prop where
  hits : ∃ rows : List (Row engine), rows.Perm (askedRows engine options query satisfies documents) ∧
    results.flatMap (·.hits) = rows.map (Row.hit query) ∧
    (Consistent (compareSearchRows engine normalization query.order)
        (askedRows engine options query satisfies documents) →
      rows.Pairwise fun left right => compareSearchRows engine normalization query.order left right ≠ .gt)
  facets : ∀ result ∈ results, result.facets.map Prod.fst = query.requestedFacets ∧ ∀ facet ∈ result.facets,
      let values := (askedRows engine options query satisfies documents).flatMap fun row =>
        facetValues row.document facet.1
      ToldApart engine values → Counts values facet.2

theorem Consistent.mono {α : Type} {compare : α → α → Ordering} {items items' : List α}
    (consistent : Consistent compare items) (inside : items' ⊆ items) : Consistent compare items' where
  refl a member := consistent.refl a (inside member)
  swap a one b two := consistent.swap a (inside one) b (inside two)
  trans a one b two c three := consistent.trans a (inside one) b (inside two) c (inside three)

theorem lists_of_visible (perm : visible.Perm (askedRows engine opts query satisfies docs))
    (hits : results.flatMap (·.hits) = (sortedRows provider query visible).map (Row.hit query))
    (facets : ∀ res ∈ results, facetsOf engine query ((sortedRows provider query visible).map (·.document)) = .ok res.facets)
    : Lists provider.normalization opts query satisfies docs results := by
  have sorted : (sortedRows provider query visible).Perm
      (askedRows engine opts query satisfies docs) := (engine.sort_perm _ _).trans perm
  refine ⟨⟨_, sorted, hits, fun consistent => engine.sort_sorted _ _ (consistent.mono perm.subset)⟩, ?_⟩
  intro res member
  obtain ⟨names, each⟩ := facetsOf_ok (facets res member)
  refine ⟨names, fun facet here => ?_⟩
  intro values apart
  have tallies := facetBuckets_tallies (each facet here)
  rw [flatMap_map] at tallies
  have alike := sorted.flatMap_right fun row => facetValues row.document facet.1
  have apart' : ToldApart engine
      ((sortedRows provider query visible).flatMap fun row => facetValues row.document facet.1) :=
    ⟨fun value held => apart.scalar value (alike.mem_iff.mp held), fun value held other held' =>
      apart.hashes value (alike.mem_iff.mp held) other (alike.mem_iff.mp held')⟩
  exact (apart'.counts tallies).perm alike

end
end Applik8s.Search
