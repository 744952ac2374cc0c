import Mathlib.Data.List.DropRight

/-! `names.dnsSafe` and `names.withHash` of `handler-dispatch.ts`. A name is trimmed first and cut to its length
afterwards, so the cut can leave a hyphen at the end, and takes the hash away where the prefix is long. -/
namespace Applik8s.Operators.Names
open List Nat

/-- The code units of a string. -/
abbrev Text := List UInt16

def isAlphanumeric (unit : UInt16) : Bool := 48 ≤ unit && unit ≤ 57 || 97 ≤ unit && unit ≤ 122
def hyphen : UInt16 := 45

/-- `toLowerCase`, as far as `[a-z0-9-]` can tell what becomes of a unit: outside ASCII, only the dotted capital I
and the Kelvin sign turn into a letter of it. -/
def lowered (unit : UInt16) : Text :=
  if 65 ≤ unit && unit ≤ 90 then [unit + 32]
  else if unit = 0x130 then [105, 0x307]
  else if unit = 0x212A then [107]
  else [unit]

variable (input : Text)

def toLowerCase : Text := input.flatMap lowered

/-- `replace(/[^a-z0-9-]+/g, '-')`, begun inside of such a run or not. -/
def hyphenated (inRun : Bool) : Text → Text
  | [] => []
  | unit :: rest =>
    if isAlphanumeric unit || unit = hyphen then unit :: hyphenated false rest
    else if inRun then hyphenated true rest
    else hyphen :: hyphenated true rest

/-- `replace(/^-+|-+$/g, '')` -/
def trimmed (text : Text) : Text := (text.dropWhile (· = hyphen)).rdropWhile (· = hyphen)

def dnsSafe (maxLength : Nat := 63) : Text :=
  (trimmed (hyphenated false (toLowerCase input))).take maxLength

def stableHash : Text :=
  let hash : UInt32 := input.foldl (fun hash unit => hash * 33 ^^^ unit.toUInt32) 5381
  (Nat.toDigits 16 hash.toNat).map fun digit => digit.toNat.toUInt16

def collisionSuffix (collisionSuffixLength : Nat := 8) : Text :=
  (stableHash input).take collisionSuffixLength

def withHash (namePrefix input : Text) (maxLength : Nat := 63) (collisionSuffixLength : Nat := 8) : Text :=
  dnsSafe (namePrefix ++ hyphen :: collisionSuffix input collisionSuffixLength) maxLength

/-- A label as of DNS-1123, of at most so many characters. -/
structure IsLabel (maxLength : Nat) (name : Text) : Prop where
  within : name.length ≤ maxLength
  allowed : ∀ unit ∈ name, isAlphanumeric unit = true ∨ unit = hyphen
  starts : ∃ first, name.head? = some first ∧ isAlphanumeric first = true
  ends : ∃ last, name.getLast? = some last ∧ isAlphanumeric last = true

/-- The names under one prefix are labels, and those of different hashes differ. -/
structure KeepsHash (maxLength : Nat) (namePrefix : Text) : Prop where
  label : ∀ input, IsLabel maxLength (withHash namePrefix input maxLength)
  suffix : ∀ input, collisionSuffix input <:+ withHash namePrefix input maxLength
  distinct : ∀ one other, collisionSuffix one ≠ collisionSuffix other →
    withHash namePrefix one maxLength ≠ withHash namePrefix other maxLength

/-- A text in lower case, from its first letter or digit on. -/
def lettered : Text := (toLowerCase input).dropWhile (!isAlphanumeric ·)

/-- The characters a text takes up. -/
def width (text : Text) : Nat := (hyphenated false text).length

/-- Between its first and its last letter or digit, a separator of the text takes the last place there is. -/
def CutAtSeparator (maxLength : Nat) (input : Text) : Prop :=
  ∃ front unit back, (lettered input).rdropWhile (!isAlphanumeric ·) = front ++ unit :: back ∧
    isAlphanumeric unit = false ∧ width front + 1 = maxLength ∧ width (front ++ [unit]) = maxLength

/-- A prefix leaves room for a hyphen and eight digits. -/
def HasRoom (maxLength : Nat) (namePrefix : Text) : Prop :=
  (if lettered namePrefix = [] then 0 else width (lettered namePrefix) + 1) + 8 ≤ maxLength

/-- The units of an ASCII text. -/
def units (text : String) : Text := text.toList.map (·.toNat.toUInt16)

/-! ### Runs of separators -/

theorem hyphenated_append (inRun : Bool) (front : Text) :
    ∃ run, ∀ back, hyphenated inRun (front ++ back) = hyphenated inRun front ++ hyphenated run back := by
  induction front generalizing inRun with
  | nil => exact ⟨inRun, fun _ => rfl⟩
  | cons unit rest ih =>
    by_cases kept : isAlphanumeric unit || unit = hyphen
    · obtain ⟨run, splits⟩ := ih false
      exact ⟨run, fun back => by simp [hyphenated, kept, splits]⟩
    · obtain ⟨run, splits⟩ := ih true
      exact ⟨run, fun back => by cases inRun <;> simp [hyphenated, kept, splits]⟩

/-- A unit more takes one place more, if it does not prolong a run. -/
theorem hyphenated_concat (inRun : Bool) (text : Text) (unit : UInt16) :
    isAlphanumeric unit = false ∧ hyphenated inRun (text ++ [unit]) = hyphenated inRun text ∨
      ∃ shown, hyphenated inRun (text ++ [unit]) = hyphenated inRun text ++ [shown] ∧
        (isAlphanumeric unit = true ∧ shown = unit ∨ isAlphanumeric unit = false ∧ shown = hyphen) := by
  obtain ⟨run, follows⟩ := hyphenated_append inRun text
  rw [follows]
  by_cases same : unit = hyphen
  · exact .inr ⟨hyphen, by simp [hyphenated, same], .inr ⟨by rw [same]; decide, rfl⟩⟩
  · cases letter : isAlphanumeric unit <;> cases run <;> simp [hyphenated, letter, same]

theorem trimmed_hyphenated (text : Text) : trimmed (hyphenated false text) =
    hyphenated false ((text.dropWhile (!isAlphanumeric ·)).rdropWhile (!isAlphanumeric ·)) := by
  have plain : isAlphanumeric hyphen = false := by decide
  have front : ∀ inRun, (hyphenated inRun text).dropWhile (· = hyphen) =
      hyphenated false (text.dropWhile (!isAlphanumeric ·)) := by
    intro inRun
    fun_induction hyphenated inRun text with
    | case1 => rfl
    | case2 _ unit =>
      by_cases letter : isAlphanumeric unit = true
      · have other : unit ≠ hyphen := by rintro rfl; simp [plain] at letter
        simp [letter, other, hyphenated]
      · simp_all
    | case3 => simp_all
    | case4 => simp_all
  rw [trimmed, front]
  induction text.dropWhile (!isAlphanumeric ·) using List.reverseRecOn with
  | nil => rfl
  | append_singleton text unit ih =>
    rw [rdropWhile_concat]
    rcases hyphenated_concat false text unit with ⟨silent, same⟩ | ⟨shown, is, ⟨letter, rfl⟩ | ⟨silent, rfl⟩⟩
    · simp [silent, same, ih]
    · have other : shown ≠ hyphen := by rintro rfl; simp [plain] at letter
      simp [is, letter, other]
    · simp [is, silent, ih]

theorem hyphenated_split {back : Text} (splits : hyphenated inRun text = front ++ shown :: back) :
    ∃ lead unit rest, text = lead ++ unit :: rest ∧ hyphenated inRun lead = front ∧
      hyphenated inRun (lead ++ [unit]) = front ++ [shown] := by
  induction text using List.reverseRecOn generalizing back with
  | nil => simp [hyphenated] at splits
  | append_singleton text unit ih =>
    have earlier : (∃ back, hyphenated inRun text = front ++ shown :: back) ∨ back = [] ∧
        ∃ last, hyphenated inRun (text ++ [unit]) = hyphenated inRun text ++ [last] := by
      rcases hyphenated_concat inRun text unit with ⟨-, same⟩ | ⟨last, is, -⟩
      · exact .inl ⟨back, same ▸ splits⟩
      rcases eq_nil_or_concat' back with empty | ⟨back, _, rfl⟩
      · exact .inr ⟨empty, last, is⟩
      · rw [is, ← cons_append, ← append_assoc] at splits
        exact .inl ⟨back, (append_inj' splits rfl).1⟩
    rcases earlier with ⟨_, splits⟩ | ⟨rfl, _, is⟩
    · obtain ⟨lead, other, rest, rfl, before, through⟩ := ih splits
      exact ⟨lead, other, rest ++ [unit], by simp, before, through⟩
    · exact ⟨text, unit, [], rfl, (append_inj' (is.symm.trans splits) rfl).1, splits⟩

theorem cutAtSeparator_iff {input : Text} : CutAtSeparator maxLength input ↔
    ∃ front back, trimmed (hyphenated false (toLowerCase input)) = front ++ hyphen :: back ∧
      front.length + 1 = maxLength := by
  rw [trimmed_hyphenated, ← lettered]
  constructor
  · rintro ⟨front, unit, back, splits, silent, rfl, through⟩
    obtain ⟨run, follows⟩ := hyphenated_append false (front ++ [unit])
    refine ⟨hyphenated false front, hyphenated run back, ?_, rfl⟩
    rw [splits, append_cons, follows]
    rcases hyphenated_concat false front unit with ⟨-, same⟩ | ⟨shown, is, ⟨letter, -⟩ | ⟨-, rfl⟩⟩
    · simp [width, same] at through
    · simp [letter] at silent
    · simp [is]
  · rintro ⟨_, _, splits, rfl⟩
    obtain ⟨lead, unit, rest, texts, before, through⟩ := hyphenated_split splits
    refine ⟨lead, unit, rest, texts, ?_, by rw [width, before], by simp [width, through]⟩
    rcases hyphenated_concat false lead unit with ⟨silent, -⟩ | ⟨shown, is, ⟨_, rfl⟩ | ⟨silent, -⟩⟩
    · exact silent
    · obtain rfl : shown = hyphen := by simpa [before, through] using is.symm
      rfl
    · exact silent

theorem allowed_hyphenated (member : unit ∈ hyphenated inRun text) : isAlphanumeric unit = true ∨ unit = hyphen := by
  induction text using List.reverseRecOn with
  | nil => cases member
  | append_singleton text last ih =>
    rcases hyphenated_concat inRun text last with ⟨-, same⟩ | ⟨_, is, allowed⟩
    · exact ih (same ▸ member)
    rw [is, mem_append, mem_singleton] at member
    rcases member with member | rfl
    · exact ih member
    · exact allowed.imp (fun ⟨letter, same⟩ => same ▸ letter) (·.2)

theorem trimmed_ends (text : Text) : (trimmed text).head? ≠ some hyphen ∧ (trimmed text).getLast? ≠ some hyphen := by
  constructor
  · intro starts
    obtain ⟨_, is⟩ := rdropWhile_prefix (p := (· = hyphen)) (l := text.dropWhile (· = hyphen))
    have begins := head?_dropWhile_not (· = hyphen) text
    rw [← is, head?_append, ← trimmed, starts] at begins
    simp at begins
  · intro ends
    have present : trimmed text ≠ [] := by rintro empty; simp [empty] at ends
    rw [getLast?_eq_some_getLast present, Option.some.injEq] at ends
    exact rdropWhile_last_not _ _ present (decide_eq_true ends)

theorem dnsSafe_iff (maxLength : Nat) (input : Text) :
    (dnsSafe input maxLength = [] ∨ IsLabel maxLength (dnsSafe input maxLength)) ↔ ¬ CutAtSeparator maxLength input := by
  rw [cutAtSeparator_iff, dnsSafe]
  obtain ⟨starts, ends⟩ := trimmed_ends (hyphenated false (toLowerCase input))
  have allowed : ∀ unit ∈ trimmed (hyphenated false (toLowerCase input)), isAlphanumeric unit = true ∨ unit = hyphen :=
    fun _ member => allowed_hyphenated (trimmed_hyphenated _ ▸ member)
  generalize trimmed (hyphenated false (toLowerCase input)) = name at *
  constructor
  · rintro label ⟨front, back, rfl, rfl⟩
    have cut : (front ++ hyphen :: back).take (front.length + 1) = front ++ [hyphen] := by
      rw [append_cons, take_left' (by simp)]
    rw [cut] at label
    obtain ⟨last, is, letter⟩ := (label.resolve_left (by simp)).ends
    rw [getLast?_concat, Option.some.injEq] at is
    exact absurd (is ▸ letter) (by decide)
  intro uncut
  rcases eq_nil_or_concat' (name.take maxLength) with empty | ⟨front, last, is⟩
  · exact .inl empty
  have inside : ∀ unit ∈ name.take maxLength, isAlphanumeric unit = true ∨ unit = hyphen :=
    fun unit member => allowed unit (mem_of_mem_take member)
  obtain ⟨first, begins⟩ : ∃ first, (name.take maxLength).head? = some first := by
    rw [is]
    cases front <;> exact ⟨_, rfl⟩
  refine .inr ⟨length_take_le .., inside, ⟨first, begins, ?_⟩, last, by rw [is, getLast?_concat], ?_⟩
  · refine (inside first (mem_of_mem_head? begins)).resolve_right ?_
    rintro rfl
    rw [head?_take] at begins
    split at begins
    · cases begins
    · exact starts begins
  refine (inside last (is ▸ mem_append_right front mem_cons_self)).resolve_right ?_
  rintro rfl
  rcases lt_or_ge maxLength name.length with _ | short
  · have size := congrArg List.length is
    simp only [length_take, length_append, length_singleton] at size
    refine uncut ⟨front, name.drop maxLength, ?_, by omega⟩
    conv_lhs => rw [← take_append_drop maxLength name, is]
    simp
  · rw [take_of_length_le short] at is
    exact ends (by rw [is, getLast?_concat])

theorem alphanumeric_of_digit (among : digit ∈ Nat.toDigits 16 value) :
    isAlphanumeric digit.toNat.toUInt16 = true := by
  have each : ∀ digit : Fin 16, isAlphanumeric (Nat.digitChar digit).toNat.toUInt16 = true := by decide
  induction value using Nat.strong_induction_on with
  | h value ih =>
    rw [toDigits_eq_if (by decide)] at among
    split at among
    · next small =>
      rw [mem_singleton.mp among]
      exact each ⟨value, small⟩
    next large =>
    rcases mem_append.mp among with among | among
    · exact ih (value / 16) (by omega) among
    · rw [mem_singleton.mp among]
      exact each ⟨value % 16, mod_lt _ (by decide)⟩

variable {input namePrefix : Text}

theorem suffix_alphanumeric (member : unit ∈ collisionSuffix input) : isAlphanumeric unit = true := by
  obtain ⟨_, among, rfl⟩ := mem_map.mp (mem_of_mem_take member)
  exact alphanumeric_of_digit among

theorem suffix_ne_nil (input : Text) : collisionSuffix input ≠ [] := by
  simp [collisionSuffix, stableHash]

theorem lowered_alphanumeric (letter : isAlphanumeric unit = true) : lowered unit = [unit] := by
  simp only [isAlphanumeric, lowered, Bool.or_eq_true, Bool.and_eq_true, decide_eq_true_eq, UInt16.le_iff_toNat_le,
    ← UInt16.toNat_inj] at letter ⊢
  have bounds : 48 ≤ unit.toNat ∧ unit.toNat ≤ 57 ∨ 97 ≤ unit.toNat ∧ unit.toNat ≤ 122 := letter
  rw [if_neg, if_neg, if_neg]
  · change unit.toNat ≠ 0x212A
    omega
  · change unit.toNat ≠ 0x130
    omega
  · change ¬(65 ≤ unit.toNat ∧ unit.toNat ≤ 90)
    omega

theorem unchanged_of_alphanumeric (letters : ∀ unit ∈ text, isAlphanumeric unit = true) :
    toLowerCase text = text ∧ hyphenated false text = text := by
  induction text with
  | nil => exact ⟨rfl, rfl⟩
  | cons unit rest ih =>
    have letter := letters unit mem_cons_self
    obtain ⟨lower, whole⟩ := ih fun other member => letters other (mem_cons_of_mem _ member)
    exact ⟨by simpa [toLowerCase, lowered_alphanumeric letter] using lower, by simp [hyphenated, letter, whole]⟩

/-- What stands before the hash in a name. -/
def beforeHash (namePrefix : Text) : Text :=
  if lettered namePrefix = [] then [] else hyphenated false (lettered namePrefix) ++ [hyphen]

theorem trimmed_withHash (namePrefix input : Text) :
    trimmed (hyphenated false (toLowerCase (namePrefix ++ hyphen :: collisionSuffix input))) =
      beforeHash namePrefix ++ collisionSuffix input := by
  have letters : ∀ unit ∈ collisionSuffix input, isAlphanumeric unit = true := fun _ => suffix_alphanumeric
  have present := suffix_ne_nil input
  generalize collisionSuffix input = hash at *
  obtain ⟨lower, whole⟩ := unchanged_of_alphanumeric letters
  have lowers : toLowerCase (namePrefix ++ hyphen :: hash) = toLowerCase namePrefix ++ hyphen :: hash := by
    simp only [toLowerCase, flatMap_append, flatMap_cons] at lower ⊢
    rw [lower, show lowered hyphen = [hyphen] by decide]
    rfl
  have begins : (toLowerCase namePrefix ++ hyphen :: hash).dropWhile (!isAlphanumeric ·) =
      if lettered namePrefix = [] then hash else lettered namePrefix ++ hyphen :: hash := by
    obtain ⟨first, _, rfl⟩ := exists_cons_of_ne_nil present
    rw [dropWhile_append, ← lettered]
    simp [show isAlphanumeric hyphen = false by decide, letters first mem_cons_self]
  rw [trimmed_hyphenated, lowers, begins, rdropWhile_eq_self_iff.mpr, beforeHash]
  · split
    · exact whole
    · obtain ⟨_, follows⟩ := hyphenated_append false (lettered namePrefix)
      simp [follows, hyphenated, whole]
  · intro filled
    have last := letters _ (getLast_mem present)
    split <;> simp [getLast_append_of_ne_nil, present, last]

theorem keepsHash_iff (maxLength : Nat) (namePrefix : Text) :
    KeepsHash maxLength namePrefix ↔ HasRoom maxLength namePrefix := by
  have size : HasRoom maxLength namePrefix ↔ (beforeHash namePrefix).length + 8 ≤ maxLength := by
    rw [HasRoom, beforeHash, width]
    split <;> simp
  have taken : ∀ input, withHash namePrefix input maxLength =
      (beforeHash namePrefix ++ collisionSuffix input).take maxLength := fun input => by
    rw [← trimmed_withHash]
    rfl
  rw [size]
  constructor
  · rintro ⟨-, suffix, -⟩
    by_contra narrow
    have eight : (collisionSuffix (units "aaaa")).length = 8 ∧ (collisionSuffix (units "abcd")).length = 8 ∧
        collisionSuffix (units "aaaa") ≠ collisionSuffix (units "abcd") := by decide +kernel
    have first := suffix (units "aaaa")
    have second := suffix (units "abcd")
    rw [taken] at first second
    rcases le_total maxLength (beforeHash namePrefix).length with gone | cut
    · rw [take_append_of_le_length gone] at first second
      exact eight.2.2 ((suffix_of_suffix_length_le first second (by omega)).eq_of_length (by omega))
    rw [take_append, take_of_length_le cut] at first
    have fits := first.length_le
    have short := length_take_le (maxLength - (beforeHash namePrefix).length) (collisionSuffix (units "aaaa"))
    rw [length_append] at fits
    generalize (collisionSuffix (units "aaaa")).take (maxLength - (beforeHash namePrefix).length) = rest at *
    by_cases bare : lettered namePrefix = []
    · simp only [beforeHash, if_pos bare, length_nil] at narrow fits short
      omega
    rw [beforeHash, if_neg bare, append_assoc] at first
    have behind := suffix_of_suffix_length_le (suffix_append _ ([hyphen] ++ rest)) first (by
      rw [length_append, length_singleton]
      omega)
    exact absurd (suffix_alphanumeric (behind.subset (mem_append_left _ mem_cons_self))) (by decide)
  · intro room
    have fits : ∀ input, (beforeHash namePrefix ++ collisionSuffix input).length ≤ maxLength := by
      intro input
      have short : (collisionSuffix input).length ≤ 8 := length_take_le ..
      rw [length_append]
      omega
    have full : ∀ input, withHash namePrefix input maxLength = beforeHash namePrefix ++ collisionSuffix input :=
      fun input => (taken input).trans (take_of_length_le (fits input))
    refine ⟨fun input => ?_, fun input => ?_, fun one other differ same => ?_⟩
    · refine ((dnsSafe_iff maxLength _).mpr ?_).resolve_left fun empty => ?_
      · rw [cutAtSeparator_iff, trimmed_withHash]
        rintro ⟨_, back, splits, rfl⟩
        have within := splits ▸ fits input
        obtain rfl : back = [] := by simpa using within
        have last := congrArg List.getLast? splits
        rw [getLast?_append_of_ne_nil _ (suffix_ne_nil input), getLast?_concat] at last
        exact absurd (suffix_alphanumeric (mem_of_getLast? last)) (by decide)
      · exact suffix_ne_nil input (append_eq_nil_iff.mp ((full input).symm.trans empty)).2
    · rw [full]
      exact suffix_append ..
    · rw [full, full] at same
      exact differ (append_cancel_left same)

/-- `dnsSafe` gives a label, or nothing, where the limit does not fall on a separator; under one prefix, `withHash`
gives labels that keep their hashes where the prefix leaves room for them. -/
theorem names_upheld_iff (maxLength : Nat) : (∀ input, (dnsSafe input maxLength = [] ∨
      IsLabel maxLength (dnsSafe input maxLength)) ↔ ¬ CutAtSeparator maxLength input) ∧
    ∀ namePrefix, KeepsHash maxLength namePrefix ↔ HasRoom maxLength namePrefix :=
  ⟨dnsSafe_iff maxLength, keepsHash_iff maxLength⟩

/-- A name that ends in a hyphen, and one name for two inputs. -/
theorem names_end_and_collide : ¬ ((dnsSafe (units "thumbnails-output") 11 = [] ∨
      IsLabel 11 (dnsSafe (units "thumbnails-output") 11))) ∧
    collisionSuffix (units "aaaa") ≠ collisionSuffix (units "abcd") ∧
    withHash (units "thumbnails") (units "aaaa") 9 = withHash (units "thumbnails") (units "abcd") 9 := by
  have cut : dnsSafe (units "thumbnails-output") 11 = units "thumbnails-" := by decide +kernel
  refine ⟨?_, by decide +kernel, by decide +kernel⟩
  rw [cut]
  rintro (empty | label)
  · exact absurd empty (by decide +kernel)
  obtain ⟨last, is, letter⟩ := label.ends
  obtain rfl : hyphen = last := by simpa using (show (units "thumbnails-").getLast? = some hyphen by decide +kernel).symm.trans is
  exact absurd letter (by decide)

end Applik8s.Operators.Names
