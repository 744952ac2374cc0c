import Applik8s.Search.Pages

/-! What a cursor is bound to. The digest of a query tells it from every other query, as long as
its filters hold plain values: the text that is hashed has no trace of a date, and writes some
numbers alike. -/
namespace Applik8s.Search
open List Bool
variable {engine : Engine} {normalization : Normalization}

/-- A value that its JSON text tells from every other such value. -/
def Value.scalar : Value → Bool
  | .null => true
  | .boolean _ => true
  | .number (.finite _) => true
  | .string _ => true
  | _ => false

/-- An operand of a comparison: a scalar, or a list of them. -/
def plainOperand (name : String) (operand : Value) : Bool :=
  if name = "in" then
    match operand with
    | .array candidates => candidates.all Value.scalar
    | _ => false
  else operand.scalar

/-- A comparison with scalars; the operations of an object have different names. -/
def plainComparison : Value → Bool
  | .object operations =>
    operations.all (fun operation => plainOperand operation.1 operation.2) && (operations.map Prod.fst).Nodup
  | comparison => comparison.scalar

def plainWhere (conditions : Record Value) : Bool :=
  conditions.all fun condition => plainComparison condition.2

open Value (scalar string)

theorem stableItems_eq (engine : Engine) (items : List Value) :
    stableItems engine items = items.map (stableJson engine) := by
  induction items with
  | nil => rfl
  | cons item rest ih => rw [stableItems, ih, map_cons]

theorem stableMembers_eq (engine : Engine) (members : List (String × Value)) : stableMembers engine members =
      members.map fun member => (member.1, stableJson engine member.2) := by
  induction members with
  | nil => rfl
  | cons member rest ih =>
    obtain ⟨_, _⟩ := member
    rw [stableMembers, ih, map_cons]

theorem mem_stableMembers : (name, text) ∈ stableMembers engine members ↔
      ∃ value, (name, value) ∈ members ∧ stableJson engine value = text := by
  rw [stableMembers_eq]
  simp

theorem stableJson_eq_hole (hole : stableJson engine value = .hole) : value = .undefined := by
  cases value with
  | undefined => rfl
  | number held =>
    cases held <;> cases hole
  | _ => simp [stableJson] at hole

theorem stableJson_array (defined : items ≠ [.undefined]) :
    stableJson engine (.array items) = .array (items.map (stableJson engine)) := by
  rw [stableJson, stableItems_eq]
  unfold joined
  split
  · next lone =>
    obtain ⟨_, _, rfl, hole, nil⟩ := map_eq_cons_iff.mp lone
    rw [stableJson_eq_hole hole, map_eq_nil_iff.mp nil] at defined
    exact absurd rfl defined
  · rfl

theorem stableMembers_perm (same : stableJson engine (.object members) = stableJson engine (.object members')) :
    (stableMembers engine members).Perm (stableMembers engine members') := by
  simp only [stableJson, Stable.object.injEq] at same
  unfold sortEntries at same
  have sorted := engine.sort_perm (fun left right : String × Stable =>
    engine.localeCompare left.1 right.1) (stableMembers engine members')
  rw [← same] at sorted
  exact (engine.sort_perm _ _).symm.trans sorted

theorem scalar_cases {value : Value} (plain : value.scalar = true) :
    value = .null ∨ (∃ held, value = .boolean held) ∨ (∃ held, value = .number (.finite held)) ∨
      ∃ text, value = .string text := by
  cases value with
  | null => exact .inl rfl
  | boolean held => exact .inr (.inl ⟨held, rfl⟩)
  | number held =>
    cases held with
    | finite held => exact .inr (.inr (.inl ⟨held, rfl⟩))
    | _ => cases plain
  | string text => exact .inr (.inr (.inr ⟨text, rfl⟩))
  | _ => cases plain

theorem scalar_inj (plain : value.scalar = true) (plain' : value'.scalar = true)
    (same : stableJson engine value = stableJson engine value') : value = value' := by
  rcases scalar_cases plain with rfl | ⟨held, rfl⟩ | ⟨held, rfl⟩ | ⟨_, rfl⟩ <;>
    rcases scalar_cases plain' with rfl | ⟨held', rfl⟩ | ⟨held', rfl⟩ | ⟨_, rfl⟩ <;>
    simp_all [stableJson, JsNumber.stable]

theorem scalar_ne_object (plain : value.scalar = true) :
    stableJson engine value ≠ stableJson engine (.object members) := by
  rcases scalar_cases plain with rfl | ⟨held, rfl⟩ | ⟨held, rfl⟩ | ⟨_, rfl⟩ <;>
    simp [stableJson, JsNumber.stable]

theorem scalars_inj {items : List Value} (plain : items.all scalar = true)
    (plain' : items'.all scalar = true) (same : items.map (stableJson engine) = items'.map (stableJson engine))
    : items = items' := by
  induction items generalizing items' with
  | nil => exact (map_eq_nil_iff.mp same.symm).symm
  | cons item rest ih =>
    cases items' with
    | nil => cases same
    | cons =>
      simp only [all_cons, and_eq_true] at plain plain'
      simp only [map_cons, cons.injEq] at same
      rw [scalar_inj plain.1 plain'.1 same.1, ih plain.2 plain'.2 same.2]

theorem scalars_defined (plain : items.all scalar = true) : items ≠ [.undefined] := by
  rintro rfl
  simp [scalar] at plain

theorem plainOperand_inj (plain : plainOperand name operand = true) (plain' : plainOperand name operand' = true)
    (same : stableJson engine operand = stableJson engine operand') : operand = operand' := by
  unfold plainOperand at plain plain'
  by_cases list : name = "in"
  · rw [if_pos list] at plain plain'
    cases operand with
    | array items =>
      cases operand' with
      | array items' =>
        rw [stableJson_array (scalars_defined plain), stableJson_array (scalars_defined plain')] at same
        rw [scalars_inj plain plain' (Stable.array.inj same)]
      | _ => cases plain'
    | _ => cases plain
  · rw [if_neg list] at plain plain'
    exact scalar_inj plain plain' same

theorem get_le_of_texts (plain : plainComparison (.object ops) = true)
    (plain' : plainComparison (.object operations') = true)
    (same : stableJson engine (.object ops) = stableJson engine (.object operations'))
    (found : Record.get ops name = some operand) : Record.get operations' name = some operand := by
  simp only [plainComparison, and_eq_true, decide_eq_true_eq, all_eq_true] at plain plain'
  have member := Record.mem_of_get found
  have text : (name, stableJson engine operand) ∈ stableMembers engine operations' :=
    (stableMembers_perm same).mem_iff.mp (mem_stableMembers.mpr ⟨operand, member, rfl⟩)
  obtain ⟨operand', member', alike⟩ := mem_stableMembers.mp text
  have same := plainOperand_inj (plain.1 (name, operand) member) (plain'.1 (name, operand') member') alike.symm
  subst same
  exact Record.get_of_mem plain'.2 member'

theorem plainComparison_cases (plain : plainComparison comparison = true) :
    comparison.scalar = true ∨ ∃ ops, comparison = .object ops := by
  cases comparison with
  | object ops => exact .inr ⟨ops, rfl⟩
  | _ => exact .inl plain

theorem matchesComparison_congr (plain : plainComparison comparison = true)
    (plain' : plainComparison comparison' = true)
    (same : stableJson engine comparison = stableJson engine comparison') (actual : Value) :
    matchesComparison engine normalization actual comparison =
      matchesComparison engine normalization actual comparison' := by
  rcases plainComparison_cases plain with scalar | ⟨ops, rfl⟩ <;>
    rcases plainComparison_cases plain' with scalar' | ⟨operations', rfl⟩
  · rw [scalar_inj scalar scalar' same]
  · exact absurd same (scalar_ne_object scalar)
  · exact absurd same.symm (scalar_ne_object scalar')
  have gets : Record.get ops = Record.get operations' := by
    funext name
    apply Option.ext
    intro operand
    exact ⟨get_le_of_texts plain plain' same, get_le_of_texts plain' plain same.symm⟩
  simp [matchesComparison, refutes, gets]

theorem matchesWhere_congr (plain : plainWhere conds = true) (plain' : plainWhere conditions' = true)
    (same : stableJson engine (.object conds) = stableJson engine (.object conditions')) (doc : Fields)
    : matchesWhere engine normalization doc conds =
      matchesWhere engine normalization doc conditions' := by
  have half : ∀ {one two : Record Value}, plainWhere one = true → plainWhere two = true →
      stableJson engine (.object one) = stableJson engine (.object two) →
      matchesWhere engine normalization doc one = true →
      matchesWhere engine normalization doc two = true := by
    intro one two plainOne plainTwo alike holds
    simp only [matchesWhere, all_eq_true, plainWhere] at holds plainOne plainTwo ⊢
    rintro ⟨field, comparison⟩ member
    have text : (field, stableJson engine comparison) ∈ stableMembers engine one :=
      (stableMembers_perm alike).mem_iff.mpr (mem_stableMembers.mpr ⟨comparison, member, rfl⟩)
    obtain ⟨_, member', told⟩ := mem_stableMembers.mp text
    rw [← matchesComparison_congr (plainOne _ member') (plainTwo _ member) told]
    exact holds _ member'
  exact eq_iff_iff.mpr ⟨half plain plain' same, half plain' plain same.symm⟩

section
variable {query query' : Query}

theorem stableMember_eq (same : stableJson engine (.object members) = stableJson engine (.object members'))
    (name : String) (member : (name, value) ∈ members) (only : ∀ other, (name, other) ∈ members' → other = value') :
    stableJson engine value = stableJson engine value' := by
  have text : (name, stableJson engine value) ∈ stableMembers engine members' :=
    (stableMembers_perm same).mem_iff.mp (mem_stableMembers.mpr ⟨value, member, rfl⟩)
  obtain ⟨other, member', told⟩ := mem_stableMembers.mp text
  rw [← told, only other member']

theorem direction_text_inj {direction : Direction} (same : direction.text = direction'.text)
    : direction = direction' := by
  cases direction <;> cases direction' <;> simp_all [Direction.text]

theorem sortBy_inj {sort : SortBy} (same : stableJson engine sort.value = stableJson engine sort'.value)
    : sort = sort' := by
  have field : string sort.field = .string sort'.field := by
    apply scalar_inj rfl rfl
    refine stableMember_eq same "field" (by simp) ?_
    simp
  have direction : string sort.direction.text = .string sort'.direction.text := by
    apply scalar_inj rfl rfl
    refine stableMember_eq same "direction" (by simp) ?_
    simp
  obtain ⟨_, _⟩ := sort
  obtain ⟨_, _⟩ := sort'
  simp only [string.injEq] at field direction
  rw [field, direction_text_inj direction]

theorem sorts_inj {sorts : List SortBy}
    (same : stableJson engine (.array (sorts.map SortBy.value)) = stableJson engine (.array (sorts'.map SortBy.value)))
    : sorts = sorts' := by
  have defined : ∀ sorts : List SortBy, sorts.map SortBy.value ≠ [.undefined] := by
    intro sorts is
    obtain ⟨sort, _, -, value, -⟩ := map_eq_cons_iff.mp is
    cases value
  rw [stableJson_array (defined sorts), stableJson_array (defined sorts'), map_map, map_map] at same
  refine map_injective_iff.mpr ?_ (Stable.array.inj same)
  exact fun sort sort' alike => sortBy_inj alike

theorem order_inj (same : stableJson engine ((query.orderBy.map OrderBy.value).getD (.array [])) =
      stableJson engine ((query'.orderBy.map OrderBy.value).getD (.array []))) : query.order = query'.order := by
  have array : ∀ {items : List Value} {sort : SortBy},
      stableJson engine (.array items) ≠ stableJson engine sort.value := by
    intro items sort is
    simp [stableJson, SortBy.value] at is
  unfold Query.order
  cases orderBy : query.orderBy with
  | none =>
    cases orderBy' : query'.orderBy with
    | none => rfl
    | some order' =>
      rw [orderBy, orderBy'] at same
      cases order' with
      | one sort' => exact absurd same array
      | many sorts' => exact (sorts_inj same : [] = sorts')
  | some order =>
    cases orderBy' : query'.orderBy with
    | none =>
      rw [orderBy, orderBy'] at same
      cases order with
      | one sort => exact absurd same.symm array
      | many sorts => exact (sorts_inj same : sorts = [])
    | some order' =>
      rw [orderBy, orderBy'] at same
      cases order with
      | one sort =>
        cases order' with
        | one sort' => rw [sortBy_inj same]
        | many sorts' => exact absurd same.symm array
      | many sorts =>
        cases order' with
        | one sort' => exact absurd same array
        | many sorts' => exact sorts_inj same

structure SameQuery (engine : Engine) (normalization : Normalization) (query query' : Query) :
    Prop where
  text : query.text = query'.text
  conditions : ∀ document, matchesWhere engine normalization document query.callerWhere =
    matchesWhere engine normalization document query'.callerWhere
  facets : query.requestedFacets = query'.requestedFacets
  order : query.order = query'.order
  limit : query.limit.getD 20 = query'.limit.getD 20

theorem sameQuery_of_text (plain : plainWhere query.callerWhere = true)
    (plain' : plainWhere query'.callerWhere = true) (text : query.text ≠ some "") (text' : query'.text ≠ some "")
    (same : stableJson engine query.value = stableJson engine query'.value) :
    SameQuery engine normalization query query' := by
  have texts : query.text.getD "" = query'.text.getD "" := by
    have alike : string (query.text.getD "") = .string (query'.text.getD "") :=
      scalar_inj rfl rfl (stableMember_eq same "text" (by simp) (by simp))
    exact string.inj alike
  refine ⟨?_, ?_, ?_, ?_, ?_⟩
  · cases held : query.text with
    | none =>
      cases held' : query'.text with
      | none => rfl
      | some other =>
        rw [held, held'] at texts
        exact absurd (held'.trans (congrArg some texts.symm)) text'
    | some one =>
      cases held' : query'.text with
      | none =>
        rw [held, held'] at texts
        exact absurd (held.trans (congrArg some texts)) text
      | some other =>
        rw [held, held'] at texts
        exact congrArg some texts
  · exact matchesWhere_congr plain plain' (stableMember_eq same "where" (by simp) (by simp))
  · have alike : stableJson engine (.array (query.requestedFacets.map .string)) =
        stableJson engine (.array (query'.requestedFacets.map .string)) :=
      stableMember_eq same "facets" (by simp) (by simp)
    have scalars : ∀ names : List String, (names.map string).all scalar = true := by
      intro names
      simp [scalar]
    rw [stableJson_array (scalars_defined (scalars _)), stableJson_array (scalars_defined (scalars _))] at alike
    exact map_injective_iff.mpr (fun _ _ => string.inj) (scalars_inj (scalars _) (scalars _) (Stable.array.inj alike))
  · exact order_inj (stableMember_eq same "orderBy" (by simp) (by simp))
  · have alike : Value.number (.finite (query.limit.getD 20 : Nat)) = .number (.finite (query'.limit.getD 20 : Nat)) :=
      scalar_inj rfl rfl (stableMember_eq same "limit" (by simp) (by simp))
    simpa using alike

end

section
variable {admission admission' : Admission} {view view' : View}

theorem digest_value (engine : Engine) (query : Query) :
    digest engine query.value = .ok (engine.sha256 (stableJson engine query.value)) := by
  simp [digest, Query.value, stableJson]

/-- What a cursor was issued under, and what it is accepted under. -/
structure SameBindings (view view' : View) (admission admission' : Admission) : Prop where
  generation : view.generation = view'.generation
  checkpoint : view.checkpoint = view'.checkpoint
  principalId : admission.principalId = admission'.principalId
  contextDigest : admission.contextDigest = admission'.contextDigest
  authorizationVersion : admission.authorizationVersion = admission'.authorizationVersion

/-- A cursor is accepted only under the bindings it was issued under, for a query of the same
digest. -/
theorem accepted_bindings {provider : Provider engine}
    (issued : search provider sealing opts now query admission view cursor = .ok res)
    (returned : res.cursor = some encoded)
    (accepted : search provider sealing opts now' query' admission' view' (some encoded) = .ok result') :
    SameBindings view view' admission admission' ∧ engine.sha256 (stableJson engine query.value) =
        engine.sha256 (stableJson engine query'.value) := by
  obtain ⟨_, _, _, _, before⟩ := search_ok issued
  obtain ⟨_, _, _, _, after⟩ := search_ok accepted
  have follows := before.follows
  dsimp only at follows
  rw [returned] at follows
  split at follows
  · cases follows
    obtain ⟨-, gen, mark, principalId, contextDigest, authorizationVersion,
      queryDigests⟩ := pageOffset_issued after.begins
    have digested := before.digested
    have digested' := after.digested
    rw [digest_value] at digested digested'
    refine ⟨⟨gen.symm, mark.symm, principalId.symm, contextDigest.symm, authorizationVersion.symm⟩, ?_⟩
    rw [Except.ok.inj digested, Except.ok.inj digested', queryDigests]
  · cases follows

theorem text_of_valid (valid : validateText query = .ok ()) : query.text ≠ some "" := by
  intro empty
  simp [validateText, empty, blank] at valid

end
end Applik8s.Search
