import Applik8s.OnlineProjection.Pages
import Applik8s.Valkey.RespProofs

/-! What a page is made of: the lanes of its windows, the cursor as what is decoded from it, and the members that a
page selects. -/
namespace Applik8s.OnlineProjection
open Lib Valkey List

section
variable {partitions : List String} {read : String → Nat → List Candidate}

/-- What is read of each partition, one behind the other. -/
def laid (read : String → Nat → List Candidate) (partitions : List String) (start : Nat) : List Candidate :=
  (partitions.zipIdx start).flatMap fun (partition, index) => read partition index

@[simp] theorem laid_nil : laid read [] start = [] := rfl

@[simp] theorem laid_cons {partition : String} :
    laid read (partition :: partitions) start = read partition start ++ laid read partitions (start + 1) := by
  simp [laid]

theorem laid_filter (own : ∀ partition index, ∀ cand ∈ read partition index, cand.partitionIndex = index)
    (start index : Nat) : (laid read partitions start).filter (·.partitionIndex = index) =
      if start ≤ index then (partitions[index - start]?.map (read · index)).getD [] else [] := by
  induction partitions generalizing start with
  | nil => simp
  | cons _ _ ih =>
    rw [laid_cons, filter_append, ih]
    by_cases here : start = index
    · subst here
      rw [filter_eq_self.mpr fun cand among => by simp [own _ _ cand among], if_neg (by omega)]
      simp
    rw [filter_eq_nil_iff.mpr fun cand among => by simp [own _ _ cand among, here], nil_append]
    by_cases later : start + 1 ≤ index
    · rw [if_pos later, if_pos (by omega), show index - start = (index - (start + 1)) + 1 by omega, getElem?_cons_succ]
    · rw [if_neg later, if_neg (by omega)]

theorem laid_sublist (part : ∀ partition index, (less partition index).Sublist (read partition index)) (start : Nat) :
    (laid less partitions start).Sublist (laid read partitions start) := by
  induction partitions generalizing start with
  | nil => simp
  | cons partition rest ih =>
    rw [laid_cons, laid_cons]
    exact (part partition start).append (ih (start + 1))

theorem laid_nodup (own : ∀ partition index, ∀ cand ∈ read partition index, cand.partitionIndex = index)
    (differ : ∀ partition index, (read partition index).Nodup) (start : Nat) :
    (laid read partitions start).Nodup := by
  have later : ∀ (partitions : List String) (start : Nat), ∀ cand ∈ laid read partitions start,
      start ≤ cand.partitionIndex := by
    intro partitions
    induction partitions with
    | nil => simp
    | cons _ _ ih =>
      intro start cand among
      rw [laid_cons] at among
      rcases mem_append.mp among with among | among
      · exact (own _ _ cand among).ge
      · exact (Nat.le_succ start).trans (ih (start + 1) cand among)
  induction partitions generalizing start with
  | nil => simp
  | cons partition rest ih =>
    rw [laid_cons]
    refine nodup_append.mpr ⟨differ partition start, ih (start + 1), fun one among other member same => ?_⟩
    have := own _ _ one among
    have := later _ _ other member
    rw [← same] at this
    omega

theorem mem_laid : cand ∈ laid read partitions start ↔
      ∃ index partition, partitions[index]? = some partition ∧ cand ∈ read partition (start + index) := by
  induction partitions generalizing start with
  | nil => simp
  | cons partition rest ih =>
    rw [laid_cons, mem_append, ih]
    constructor
    · rintro (among | ⟨index, other, stands, among⟩)
      · exact ⟨0, partition, rfl, among⟩
      · exact ⟨index + 1, other, stands, by rwa [show start + (index + 1) = start + 1 + index by omega]⟩
    rintro ⟨_ | index, other, stands, among⟩
    · cases stands
      exact .inl among
    · exact .inr ⟨index, other, stands, by rwa [show start + 1 + index = start + (index + 1) by omega]⟩

end

/-! ### The order of candidates -/

namespace Collation
variable (collation : Collation)

instance : Std.TransCmp collation.compare := collation.lawful

private theorem trans_read {α : Type} (compare : α → α → Ordering) [Std.TransCmp compare] (read : Candidate → α) :
    Std.TransCmp fun left right => compare (read left) (read right) where
  eq_swap := Std.OrientedCmp.eq_swap
  isLE_trans := Std.TransCmp.isLE_trans

private theorem trans_back {α : Type} (compare : α → α → Ordering) [Std.TransCmp compare] (read : Candidate → α) :
    Std.TransCmp fun left right => compare (read right) (read left) :=
  trans_read (fun left right => compare right left) read

instance : Std.TransCmp collation.compareCandidates := by
  have score := trans_back (Ord.compare : Rat → Rat → Ordering) Candidate.score
  have member := trans_back collation.compare Candidate.member
  have partition := trans_read collation.compare Candidate.partition
  exact inferInstanceAs (Std.TransCmp (compareLex _ (compareLex _ _)))

theorem ahead_total (left right : Candidate) : collation.Ahead left right ∨ collation.Ahead right left := by
  have swap : collation.compareCandidates right left = (collation.compareCandidates left right).swap :=
    Std.OrientedCmp.eq_swap
  unfold Ahead
  rw [swap]
  cases collation.compareCandidates left right <;> simp

theorem ahead_trans (one : collation.Ahead left middle) (other : collation.Ahead middle right)
    : collation.Ahead left right :=
  Std.TransCmp.isLE_trans one other

theorem ahead_same {partition : String} {left right : Scored} :
    collation.Ahead ⟨partition, index, left.member, left.score⟩ ⟨partition, index, right.member, right.score⟩ ↔
      right.score < left.score ∨ left.score = right.score ∧ collation.compare left.member right.member ≠ .lt := by
  have self : collation.compare partition partition = .eq := Std.ReflCmp.compare_self
  have swap : collation.compare right.member left.member = (collation.compare left.member right.member).swap :=
    Std.OrientedCmp.eq_swap
  unfold Ahead compareCandidates compareLex
  simp only [self, swap]
  rcases lt_trichotomy right.score left.score with less | same | more
  · simp [compare_lt_iff_lt.mpr less, less]
  · simp only [same, lt_self_iff_false, true_and, false_or]
    cases collation.compare left.member right.member <;> simp
  · simp [compare_gt_iff_gt.mpr more, not_lt.mpr more.le, more.ne]

end Collation

/-- A cursor with these offsets can be made, and is taken back. -/
def CursorFits (revision : String) (partitions : List String) (offsets : List Nat) : Prop :=
  (codeUnits (cursorText revision partitions offsets)).length ≤ 64000 ∧ ∀ offset ∈ offsets, offset ≤ 10000000

instance (revision : String) (partitions : List String) (offsets : List Nat) :
    Decidable (CursorFits revision partitions offsets) := inferInstanceAs (Decidable (_ ∧ _))

section
variable {text : String}

private theorem properStrings (values : List String) : JsonText.ProperItems (values.map .string) := by
  induction values with
  | nil => trivial
  | cons value rest ih => exact ⟨trivial, ih⟩

private theorem properOffsets (offsets : List Nat) :
    JsonText.ProperItems (offsets.map fun (offset : Nat) => .number offset) := by
  induction offsets with
  | nil => trivial
  | cons offset rest ih => exact ⟨Rat.den_natCast offset, ih⟩

theorem cursorPayload_proper : JsonText.Proper (cursorPayload rev partitions offsets) :=
  ⟨by simp, rfl, trivial, properStrings partitions, properOffsets offsets, trivial⟩

theorem parse_cursorText : JsonText.parse (Valkey.text (Base64.decode (cursorText rev partitions offsets).toList)) =
      some (cursorPayload rev partitions offsets) := by
  rw [cursorText, String.toList_ofList, Base64.decode_encode, text_encode,
    JsonText.parse_stringify _ cursorPayload_proper]

private theorem mapM_asString (values : List String) : (values.map Json.string).mapM asString = some values := by
  induction values with
  | nil => rfl
  | cons value rest ih => simp [mapM_cons, asString, ih]

private theorem mapM_asOffset (offsets : List Nat) :
    (offsets.map fun (offset : Nat) => Json.number offset).mapM asOffset =
      if ∀ offset ∈ offsets, offset ≤ 10000000 then some offsets else none := by
  induction offsets with
  | nil => rfl
  | cons offset rest ih =>
    have bound : ((offset : Rat) ≤ 10000000) ↔ offset ≤ 10000000 := by exact_mod_cast Iff.rfl
    have whole : (∀ other ∈ offset :: rest, other ≤ 10000000) ↔ offset ≤ 10000000 ∧ ∀ other ∈ rest, other ≤ 10000000 :=
      forall_mem_cons
    rw [map_cons, mapM_cons, ih]
    by_cases small : offset ≤ 10000000
    · have read : asOffset (.number offset) = some offset := by simp [asOffset, bound, small]
      by_cases others : ∀ other ∈ rest, other ≤ 10000000
      · rw [if_pos others, if_pos (whole.mpr ⟨small, others⟩), read]
        rfl
      · rw [if_neg others, if_neg fun all => others (whole.mp all).2, read]
        rfl
    · rw [if_neg fun all => small (whole.mp all).1]
      simp [asOffset, bound, small]

theorem payloadFields_cursorPayload : payloadFields (cursorPayload rev partitions offsets) =
      if ∀ offset ∈ offsets, offset ≤ 10000000 then some (rev, partitions, offsets) else none := by
  have version : payloadMember (cursorPayload rev partitions offsets) "version" = some (.number 1) := rfl
  have held : payloadMember (cursorPayload rev partitions offsets) "revision" = some (.string rev) := rfl
  have listed : payloadMember (cursorPayload rev partitions offsets) "partitions" =
      some (.array (partitions.map .string)) := rfl
  have counted : payloadMember (cursorPayload rev partitions offsets) "offsets" =
      some (.array (offsets.map fun (offset : Nat) => .number offset)) := rfl
  simp only [payloadFields, version, held, listed, counted, mapM_asString, mapM_asOffset, if_true]
  by_cases near : ∀ offset ∈ offsets, offset ≤ 10000000
  · rw [if_pos near, if_pos near]
    rfl
  · rw [if_neg near, if_neg near]
    rfl

theorem encodeCursor_ok : encodeCursor rev partitions offsets = .ok text ↔
      (codeUnits (cursorText rev partitions offsets)).length ≤ 64000 ∧
        cursorText rev partitions offsets = text := by
  unfold encodeCursor
  dsimp only
  split <;> simp <;> omega

/-- A cursor that was handed out is taken back as the offsets it was made of, unless one of them is too far. -/
theorem decodeCursor_encodeCursor (made : encodeCursor rev partitions offsets = .ok text)
    (counted : offsets.length = partitions.length) (further : List Nat) :
    decodeCursor (some text) rev partitions = .ok further ↔
      offsets = further ∧ CursorFits rev partitions offsets := by
  obtain ⟨short, rfl⟩ := encodeCursor_ok.mp made
  have fields : payloadFields (cursorPayload rev partitions offsets) = _ := payloadFields_cursorPayload
  obtain ⟨members, obj⟩ : ∃ members, cursorPayload rev partitions offsets = .object members := ⟨_, rfl⟩
  unfold decodeCursor
  dsimp only
  rw [if_neg (Nat.not_lt.mpr short), parse_cursorText, obj]
  dsimp only
  rw [← obj, fields]
  by_cases near : ∀ offset ∈ offsets, offset ≤ 10000000
  · rw [if_pos near]
    dsimp only
    rw [if_neg (not_not_intro rfl), if_neg (by simp [counted])]
    exact ⟨fun same => ⟨Except.ok.inj same, short, near⟩, fun both => congrArg _ both.1⟩
  · rw [if_neg near]
    exact ⟨nofun, fun both => absurd both.2.2 near⟩

end

theorem splitRevision_eq (gen : String) (mark : Nat) : splitRevision (gen ++ ":" ++ String.ofList (decimal mark)) =
      (gen, String.ofList (decimal mark)) := by
  have digits : ∀ char ∈ (decimal mark).reverse, (char != ':') = true := by
    intro char among
    have range := decimal_range mark char (mem_reverse.mp among)
    simp only [bne_iff_ne]
    rintro rfl
    exact absurd range.2 (by decide)
  have reversed : (gen ++ ":" ++ String.ofList (decimal mark)).toList.reverse =
      (decimal mark).reverse ++ ':' :: gen.toList.reverse := by
    simp
  unfold splitRevision
  simp only [ne_eq, decide_not, reversed]
  have behind : ((decimal mark).reverse ++ ':' :: gen.toList.reverse).takeWhile (fun char => !decide (char = ':')) =
      (decimal mark).reverse := by
    rw [takeWhile_append_of_pos (by simpa using digits)]
    simp
  have before : ((decimal mark).reverse ++ ':' :: gen.toList.reverse).dropWhile (fun char => !decide (char = ':')) =
      ':' :: gen.toList.reverse := by
    rw [dropWhile_append_of_pos (by simpa using digits)]
    simp
  rw [behind, before]
  simp

/-- A projection at rest: a generation is active, the checkpoint is a safe integer, and of every member that is
listed the value is held and can be read. -/
structure Projection {Value : Type} (reader : Reader Value) where
  keyspace : Keyspace
  generation : String
  checkpoint : Nat
  active : keyspace.active = some generation
  named : generation ≠ ""
  reached : keyspace.checkpoint.getD 0 = checkpoint
  safe : checkpoint ≤ maxSafeInteger
  held : ∀ partition, ∀ entry ∈ (keyspace.rows generation partition).order.entries,
    ∃ item, reader.itemOf keyspace generation partition entry.member = .ok item

namespace Projection
variable {Value : Type} {reader : Reader Value} (projection : Projection reader)

def revision : String := projection.generation ++ ":" ++ String.ofList (decimal projection.checkpoint)

theorem revision_eq : reader.revision projection.keyspace = .ok projection.revision := by
  unfold Reader.revision
  rw [projection.active]
  split
  · next none => cases none
  · next empty => exact absurd (Option.some.inj empty) projection.named
  next gen same =>
  cases same
  rw [projection.reached]
  have := projection.safe
  exact if_neg (by omega)

variable (partition : String) (partitions : List String) (offsets : List Nat) (index : Nat)

/-- The members of one partition, as candidates of a page. -/
def members : List Candidate :=
  candidatesOf partition index (projection.keyspace.rows projection.generation partition).order.entries

def everything : List Candidate := laid projection.members partitions 0

variable (limit : Nat)

def windows : List Candidate :=
  projection.keyspace.candidates projection.generation partitions offsets limit

theorem windows_eq : projection.windows partitions offsets limit =
      laid (fun partition index => ((projection.members partition index).drop (offsets.getD index 0)).take (limit + 1))
        partitions 0 := by
  unfold windows Keyspace.candidates laid
  congr 1
  funext pair
  simp only [SortedSet.reverseRange, candidatesOf, members, map_take, map_drop]
  rw [show offsets.getD pair.2 0 + limit + 1 - offsets.getD pair.2 0 = limit + 1 by omega]

theorem own : ∀ cand ∈ projection.members partition index,
    cand.partitionIndex = index := by
  intro cand among
  obtain ⟨_, _, rfl⟩ := mem_map.mp among
  rfl

theorem members_nodup : (projection.members partition index).Nodup :=
  List.Nodup.of_map Candidate.member (by
    rw [members, candidatesOf, map_map]
    exact (projection.keyspace.rows projection.generation partition).order.distinct)

theorem everything_nodup : (projection.everything partitions).Nodup :=
  laid_nodup projection.own projection.members_nodup 0

theorem windows_sublist :
    (projection.windows partitions offsets limit).Sublist (projection.everything partitions) := by
  rw [windows_eq]
  exact laid_sublist (fun _ _ => (take_sublist _ _).trans (drop_sublist _ _)) 0

theorem windows_filter (limit index : Nat) :
    (projection.windows partitions offsets limit).filter (·.partitionIndex = index) =
      (((projection.everything partitions).filter (·.partitionIndex = index)).drop (offsets.getD index 0)).take
        (limit + 1) := by
  rw [windows_eq, everything, laid_filter projection.own, laid_filter fun partition index cand among =>
    projection.own partition index cand (mem_of_mem_drop (mem_of_mem_take among))]
  cases partitions[index - 0]? <;> simp

/-- The items are the values of the members, in their order. -/
def Values (selected : List Candidate) (items : List Value) : Prop :=
  List.Forall₂ (fun candidate item => reader.itemOf projection.keyspace projection.generation candidate.partition
    candidate.member = .ok item) selected items

theorem items_ok {partitions : List String} (listed : ∀ cand ∈ selected, cand ∈ projection.everything partitions) :
    ∃ items, selected.mapM (fun cand => reader.itemOf projection.keyspace projection.generation
      cand.partition cand.member) = .ok items ∧ projection.Values selected items := by
  induction selected with
  | nil => exact ⟨[], rfl, .nil⟩
  | cons cand rest ih =>
    obtain ⟨items, others, values⟩ := ih fun other among => listed other (.tail _ among)
    obtain ⟨_, partition, _, among⟩ := mem_laid.mp (listed cand (.head _))
    obtain ⟨entry, held, rfl⟩ := mem_map.mp among
    obtain ⟨item, read⟩ := projection.held partition entry held
    refine ⟨item :: items, ?_, .cons read values⟩
    rw [mapM_cons, others, read]
    rfl

section
variable (opts : PageOptions) {partitions : List String} {limit : Nat} {offsets : List Nat}
  (accepted : normalizePagePartitions opts = .ok partitions) (limited : opts.limit = limit)
  (positive : 1 ≤ limit) (small : limit ≤ 500)

def selection (partitions : List String) (offsets : List Nat) (limit : Nat) : List Candidate :=
  ((projection.windows partitions offsets limit).insertionSort reader.collation.Ahead).take limit

include accepted limited positive small

/-- A page whose cursor is taken back selects from the windows at its offsets, and has a cursor of its own exactly
when they hold more. -/
theorem page_decoded (decoded : decodeCursor opts.cursor projection.revision partitions = .ok offsets) :
    ∃ items, projection.Values (projection.selection partitions offsets limit) items ∧
      reader.page projection.keyspace opts = (if limit < (projection.windows partitions offsets limit).length then
        some <$> encodeCursor projection.revision partitions
          (nextOffsets offsets (projection.selection partitions offsets limit))
      else .ok none) >>= fun cursor => .ok
        { items, selected := projection.selection partitions offsets limit, cursor,
          generation := projection.generation, eventWatermark := String.ofList (decimal projection.checkpoint),
          rebuilding := truthy projection.keyspace.rebuilding } := by
  have listed : ∀ cand ∈ projection.selection partitions offsets limit,
      cand ∈ projection.everything partitions := fun cand among =>
    (projection.windows_sublist partitions offsets limit).subset
      ((mem_insertionSort reader.collation.Ahead).mp (mem_of_mem_take among))
  obtain ⟨items, read, values⟩ := projection.items_ok listed
  refine ⟨items, values, ?_⟩
  have toNat : opts.limit.toNat = limit := by omega
  have split := splitRevision_eq projection.generation projection.checkpoint
  unfold Reader.page
  simp only [accepted, bind, Except.bind]
  rw [if_neg (by omega)]
  simp only [projection.revision_eq, decoded, toNat]
  simp only [revision] at *
  unfold selection windows at read ⊢
  simp only [split, length_insertionSort, read, gt_iff_lt]
  split <;> rfl

theorem page_refused (refused : decodeCursor opts.cursor projection.revision partitions = .error error) :
    reader.page projection.keyspace opts = .error error := by
  unfold Reader.page
  simp only [accepted, bind, Except.bind]
  rw [if_neg (by omega)]
  simp [projection.revision_eq, refused]

end
end Projection
end Applik8s.OnlineProjection
