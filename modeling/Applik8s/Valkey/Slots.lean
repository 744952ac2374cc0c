import Mathlib.Data.List.TakeWhile
import Mathlib.Data.Nat.Bitwise
import Applik8s.Lib.Crc
import Applik8s.Lib.Utf8

/-! Which slot of a cluster a command is sent to: `commandSlot` of `valkey-protocol.ts`, and the slot that the cluster
gives the key. -/
namespace Applik8s.Valkey
open Lib List Option

/-- `/\{([^{}]+)\}/` where a text begins: its group. -/
def groupAt : List Char → Option (List Char)
  | [] => none
  | char :: rest =>
    let unbraced := fun char => char ≠ '{' ∧ char ≠ '}'
    let group := rest.takeWhile unbraced
    if char = '{' ∧ group ≠ [] ∧ (rest.dropWhile unbraced).head? = some '}' then some group else none

/-- `key.match(/\{([^{}]+)\}/)?.[1]`. -/
def matchGroup : List Char → Option (List Char)
  | [] => none
  | char :: rest => groupAt (char :: rest) <|> matchGroup rest

/-- The loop over the bits of a byte that has been taken in. -/
def crcBits : Nat → Nat → Nat
  | 0, crc => crc
  | bits + 1, crc =>
    crcBits bits (if crc &&& 0x8000 ≠ 0 then ((crc <<< 1) ^^^ 0x1021) &&& 0xffff else (crc <<< 1) &&& 0xffff)

def redisSlot (key : String) : Nat :=
  let tagged := (matchGroup key.toList).getD key.toList
  (encode tagged).foldl (fun crc byte => crcBits 8 (crc ^^^ byte.toNat <<< 8)) 0 % 16384

/-- The slot of the key of a command, whose arguments are given as `String` writes them. -/
def commandSlot (parts : List String) : Option Nat :=
  let operation := (parts[0]?.getD "").toUpper
  let raw := if operation = "EVAL" then parts[3]? else parts[1]?
  match raw with
  | none => none
  | some key => if operation ∈ ["AUTH", "ASKING", "PING", "INFO", "CLUSTER"] then none else some (redisSlot key)

/-! ### The slot of a key -/

/-- What of a key is hashed: what is between the first opening brace and the first closing one behind it, if there is
something. -/
def hashTag (key : List Char) : List Char :=
  let rest := (key.dropWhile (· ≠ '{')).tail
  let inside := rest.takeWhile (· ≠ '}')
  if '}' ∈ rest ∧ inside ≠ [] then inside else key

/-- CRC16-XMODEM, the check by x¹⁶ + x¹² + x⁵ + 1, modulo the number of slots. -/
noncomputable def slotOf (tag : List Char) : Nat := crc 16 0x1021 (encode tag) % 16384

noncomputable def keySlot (key : String) : Nat := slotOf (hashTag key.toList)

/-- The command has the key: behind a script and the number of its keys, or behind the name of an operation that has
keys. -/
inductive HasKey : List String → String → Prop where
  | eval {operation : String} (script count key : String) (rest : List String) (named : operation.toUpper = "EVAL") :
    HasKey (operation :: script :: count :: key :: rest) key
  | first {operation : String} (key : String) (rest : List String) (other : operation.toUpper ≠ "EVAL")
      (keyed : operation.toUpper ∉ ["AUTH", "ASKING", "PING", "INFO", "CLUSTER"]) :
    HasKey (operation :: key :: rest) key

/-- There is a group between braces in the text, without a brace in it. -/
def HasGroup (text group : List Char) : Prop :=
  (group ≠ [] ∧ '{' ∉ group ∧ '}' ∉ group) ∧ ∃ before after, text = before ++ '{' :: (group ++ '}' :: after)

def FirstGroup (text group : List Char) : Prop :=
  (group ≠ [] ∧ '{' ∉ group ∧ '}' ∉ group) ∧ ∃ before after, text = before ++ '{' :: (group ++ '}' :: after) ∧
    ∀ other, ¬ HasGroup before other

/-- Behind the first opening brace the first closing one, if any, closes a text without a brace in it; where it closes
nothing, no group follows. -/
def Unambiguous (key : List Char) : Prop :=
  let rest := (key.dropWhile (· ≠ '{')).tail
  '}' ∈ rest → '{' ∉ rest.takeWhile (· ≠ '}') ∧ (rest.head? = some '}' → ∀ group, ¬ HasGroup rest group)

/-- The first group of the key, or the key that has none, is not what is hashed of it, and yet in the same slot. -/
def Collides (key : List Char) : Prop :=
  ∃ text, (FirstGroup key text ∨ text = key ∧ ∀ group, ¬ HasGroup key group) ∧ text ≠ hashTag key ∧
    slotOf text = slotOf (hashTag key)

variable {text group rest : List Char}

/-! ### The regular expression -/

private theorem inside_group (unbraced : '{' ∉ group ∧ '}' ∉ group) (char : Char) (among : char ∈ group) :
    decide (char ≠ '{' ∧ char ≠ '}') = true := by
  have opens : char ≠ '{' := fun same => unbraced.1 (same ▸ among)
  have closes : char ≠ '}' := fun same => unbraced.2 (same ▸ among)
  simp [opens, closes]

theorem takeWhile_group (after : List Char) (unbraced : '{' ∉ group ∧ '}' ∉ group) :
    (group ++ '}' :: after).takeWhile (fun char => char ≠ '{' ∧ char ≠ '}') = group := by
  rw [takeWhile_append_of_pos (inside_group unbraced)]
  simp

theorem dropWhile_group (after : List Char) (unbraced : '{' ∉ group ∧ '}' ∉ group) :
    (group ++ '}' :: after).dropWhile (fun char => char ≠ '{' ∧ char ≠ '}') = '}' :: after := by
  rw [dropWhile_append_of_pos (inside_group unbraced)]
  simp

theorem inside_before {before behind after : List Char} (braceless : '{' ∉ group ∧ '}' ∉ group)
    (same : before ++ '{' :: after = group ++ '}' :: behind) : ∃ rest, before = group ++ '}' :: rest := by
  rcases append_eq_append_iff.mp same with ⟨middle, is, tail⟩ | ⟨middle, is, tail⟩
  · cases middle with
    | nil => cases tail
    | cons =>
      obtain ⟨rfl, -⟩ := cons.inj tail
      exact absurd (is ▸ by simp) braceless.1
  · cases middle with
    | nil => cases tail
    | cons char middle =>
      obtain ⟨rfl, -⟩ := cons.inj tail
      exact ⟨middle, is⟩

theorem groupAt_eq_some : groupAt text = some group ↔
    (group ≠ [] ∧ '{' ∉ group ∧ '}' ∉ group) ∧ ∃ after, text = '{' :: (group ++ '}' :: after) := by
  constructor
  · intro found
    cases text with
    | nil => cases found
    | cons =>
      unfold groupAt at found
      dsimp only at found
      split at found
      · next closed =>
        obtain ⟨rfl, nonempty, closes⟩ := closed
        cases found
        obtain ⟨after, is⟩ := head?_eq_some_iff.mp closes
        refine ⟨⟨nonempty, fun among => ?_, fun among => ?_⟩, after, congrArg _ ?_⟩
        · simpa using mem_takeWhile_imp among
        · simpa using mem_takeWhile_imp among
        · rw [← is, takeWhile_append_dropWhile]
      · cases found
  · rintro ⟨⟨nonempty, unbraced⟩, after, rfl⟩
    unfold groupAt
    dsimp only
    rw [takeWhile_group after unbraced, dropWhile_group after unbraced, if_pos ⟨rfl, nonempty, rfl⟩]

theorem matchGroup_eq_some : matchGroup text = some group ↔ FirstGroup text group := by
  induction text with
  | nil =>
    refine ⟨nofun, ?_⟩
    rintro ⟨-, before, after, is, -⟩
    simp at is
  | cons char rest ih =>
    rw [matchGroup]
    constructor
    · intro found
      cases here : groupAt (char :: rest) with
      | some held =>
        rw [here] at found
        cases found
        obtain ⟨unbraced, after, is⟩ := groupAt_eq_some.mp here
        refine ⟨unbraced, [], after, is, ?_⟩
        rintro other ⟨-, before, after, is⟩
        simp at is
      | none =>
        rw [here] at found
        obtain ⟨unbraced, before, after, rfl, first⟩ := ih.mp found
        refine ⟨unbraced, char :: before, after, rfl, ?_⟩
        rintro other ⟨braceless, earlier, later, is⟩
        cases earlier with
        | nil =>
          cases is
          have matched := groupAt_eq_some.mpr ⟨braceless, later ++ '{' :: (group ++ '}' :: after), rfl⟩
          rw [append_assoc, cons_append] at here
          cases here.symm.trans matched
        | cons _ earlier =>
          cases is
          exact first other ⟨braceless, earlier, later, rfl⟩
    · rintro ⟨unbraced, before, after, is, first⟩
      cases before with
      | nil =>
        rw [groupAt_eq_some.mpr ⟨unbraced, after, is⟩]
        rfl
      | cons _ before =>
        rw [cons_append, cons.injEq] at is
        obtain ⟨rfl, rfl⟩ := is
        have later : FirstGroup (before ++ '{' :: (group ++ '}' :: after)) group := by
          refine ⟨unbraced, before, after, rfl, ?_⟩
          rintro other ⟨braceless, earlier, later, rfl⟩
          exact first other ⟨braceless, _ :: earlier, later, rfl⟩
        have nowhere : groupAt (char :: (before ++ '{' :: (group ++ '}' :: after))) = none := by
          cases here : groupAt (char :: (before ++ '{' :: (group ++ '}' :: after))) with
          | none => rfl
          | some other =>
            obtain ⟨braceless, _, same⟩ := groupAt_eq_some.mp here
            rw [cons.injEq] at same
            obtain ⟨rfl, same⟩ := same
            obtain ⟨remainder, rfl⟩ := inside_before braceless.2 same
            exact absurd ⟨braceless, [], remainder, rfl⟩ (first other)
        rw [nowhere, ih.mpr later]
        rfl

theorem matchGroup_eq_none : matchGroup text = none ↔ ∀ group, ¬ HasGroup text group := by
  constructor
  · intro nowhere
    induction text with
    | nil =>
      rintro group ⟨-, before, after, is⟩
      simp at is
    | cons char rest ih =>
      rw [matchGroup] at nowhere
      obtain ⟨here, later⟩ : groupAt (char :: rest) = none ∧ matchGroup rest = none := by
        cases here : groupAt (char :: rest) with
        | none => exact ⟨rfl, by rwa [here] at nowhere⟩
        | some group =>
          rw [here] at nowhere
          cases nowhere
      rintro group ⟨unbraced, before, after, is⟩
      cases before with
      | nil =>
        rw [groupAt_eq_some.mpr ⟨unbraced, after, is⟩] at here
        cases here
      | cons _ before =>
        rw [cons_append, cons.injEq] at is
        exact ih later group ⟨unbraced, before, after, is.2⟩
  · intro nowhere
    cases found : matchGroup text with
    | none => rfl
    | some group =>
      obtain ⟨unbraced, before, after, is, -⟩ := matchGroup_eq_some.mp found
      exact absurd ⟨unbraced, before, after, is⟩ (nowhere group)

/-! ### The two texts that are hashed -/

theorem groupAt_other {char : Char} (other : char ≠ '{') : groupAt (char :: rest) = none := by
  cases found : groupAt (char :: rest) with
  | none => rfl
  | some group =>
    obtain ⟨-, _, is⟩ := groupAt_eq_some.mp found
    exact absurd (cons.inj is).1 other

theorem matchGroup_behind {lead : List Char} (closed : '{' ∉ lead) :
    matchGroup (lead ++ '{' :: rest) = (groupAt ('{' :: rest) <|> matchGroup rest) := by
  induction lead with
  | nil => rw [nil_append, matchGroup]
  | cons char lead ih =>
    obtain ⟨other, closed⟩ := not_or.mp (mt mem_cons.mpr closed)
    rw [cons_append, matchGroup, ih closed, groupAt_other (Ne.symm other)]
    rfl

private theorem takeWhile_ne (absent : char ∉ text) :
    (text ++ char :: rest).takeWhile (· ≠ char) = text ∧ (text ++ char :: rest).dropWhile (· ≠ char) = char :: rest := by
  have each : ∀ other ∈ text, decide (other ≠ char) = true := by
    intro other among
    exact decide_eq_true fun same => absent (same ▸ among)
  rw [takeWhile_append_of_pos each, dropWhile_append_of_pos each]
  simp

theorem matched_ne {other : List Char} (found : matchGroup text = some group) (opens : '{' ∈ other) : group ≠ other := by
  rintro rfl
  obtain ⟨⟨-, unopened, -⟩, -⟩ := matchGroup_eq_some.mp found
  exact unopened opens

theorem groupAt_closed (after : List Char) : groupAt ('{' :: '}' :: after) = none := by
  cases found : groupAt ('{' :: '}' :: after) with
  | none => rfl
  | some group =>
    obtain ⟨⟨nonempty, -, unclosed⟩, _, is⟩ := groupAt_eq_some.mp found
    cases group with
    | nil => exact absurd rfl nonempty
    | cons =>
      rw [cons_append, cons.injEq, cons.injEq] at is
      exact absurd (is.2.1 ▸ mem_cons_self) unclosed

theorem matched_eq_of_closed {lead after : List Char} (closed : '{' ∉ lead) :
    (matchGroup (lead ++ '{' :: '}' :: after)).getD (lead ++ '{' :: '}' :: after) = lead ++ '{' :: '}' :: after ↔
      ∀ group, ¬ HasGroup ('}' :: after) group := by
  have behind : matchGroup (lead ++ '{' :: '}' :: after) = matchGroup ('}' :: after) := by
    rw [matchGroup_behind closed, groupAt_closed]
    rfl
  rw [behind]
  constructor
  · intro same
    refine matchGroup_eq_none.mp ?_
    cases found : matchGroup ('}' :: after) with
    | none => rfl
    | some group =>
      rw [found] at same
      exact absurd same (matched_ne found (by simp))
  · intro nowhere
    rw [matchGroup_eq_none.mpr nowhere]
    rfl

theorem matched_eq_of_inside {lead inside after : List Char} (closed : '{' ∉ lead) (nonempty : inside ≠ [])
    (unclosed : '}' ∉ inside) :
    (matchGroup (lead ++ '{' :: (inside ++ '}' :: after))).getD (lead ++ '{' :: (inside ++ '}' :: after)) = inside ↔
      '{' ∉ inside := by
  constructor
  · intro same reopened
    cases found : matchGroup (lead ++ '{' :: (inside ++ '}' :: after)) with
    | none =>
      rw [found] at same
      have lengths := congrArg List.length same
      simp only [getD_none, length_append, length_cons] at lengths
      omega
    | some group =>
      rw [found] at same
      exact matched_ne found reopened same
  · intro unopened
    rw [matchGroup_behind closed, groupAt_eq_some.mpr ⟨⟨nonempty, unopened, unclosed⟩, after, rfl⟩]
    rfl

theorem matched_eq_hashTag (key : List Char) : (matchGroup key).getD key = hashTag key ↔ Unambiguous key := by
  unfold hashTag Unambiguous
  dsimp only
  by_cases opens : '{' ∈ key
  · obtain ⟨lead, rest, rfl, closed⟩ := eq_append_cons_of_mem opens
    rw [(takeWhile_ne closed).2, tail_cons]
    by_cases closes : '}' ∈ rest
    · obtain ⟨inside, after, rfl, unclosed⟩ := eq_append_cons_of_mem closes
      rw [(takeWhile_ne unclosed).1]
      cases inside with
      | nil => simp [matched_eq_of_closed closed]
      | cons char inside =>
        have later : char ≠ '}' := fun same => unclosed (same ▸ mem_cons_self)
        rw [if_pos ⟨closes, cons_ne_nil _ _⟩, matched_eq_of_inside closed (cons_ne_nil _ _) unclosed]
        simp [later]
    have nowhere : ∀ group, ¬ HasGroup (lead ++ '{' :: rest) group := by
      rintro group ⟨-, before, after, is⟩
      rcases append_eq_append_iff.mp is with ⟨middle, -, tail⟩ | ⟨middle, rfl, tail⟩
      · have closing : '}' ∈ '{' :: rest := by simp [tail]
        exact closes (by simpa using closing)
      cases middle with
      | nil =>
        rw [nil_append, cons.injEq] at tail
        exact closes (by simp [← tail.2])
      | cons =>
        rw [cons_append, cons.injEq] at tail
        exact closed (by simp [← tail.1])
    rw [matchGroup_eq_none.mpr nowhere, if_neg fun both => closes both.1]
    exact ⟨fun _ closing => absurd closing closes, fun _ => rfl⟩
  · have nowhere : ∀ group, ¬ HasGroup key group := by
      rintro _ ⟨-, _, _, rfl⟩
      exact opens (by simp)
    have whole : key.dropWhile (· ≠ '{') = [] := by
      rw [dropWhile_eq_nil_iff]
      intro char among
      exact decide_eq_true fun same => opens (same ▸ among)
    rw [whole, matchGroup_eq_none.mpr nowhere]
    simp

theorem crcBits_eq (bits register : Nat) : crcBits bits register = (crcShift 16 0x1021)^[bits] register := by
  induction bits generalizing register with
  | zero => rfl
  | succ bits ih =>
    have mask : ∀ value, value &&& 0xffff = value % 2 ^ 16 := fun value => Nat.and_two_pow_sub_one_eq_mod value 16
    have high : register &&& 0x8000 = (register.testBit 15).toNat * 2 ^ 15 := Nat.and_two_pow register 15
    rw [Function.iterate_succ_apply, crcBits, ih, mask, mask, high, crcShift]
    cases register.testBit 15 <;> simp

theorem redisSlot_eq (key : String) : redisSlot key = slotOf ((matchGroup key.toList).getD key.toList) := by
  have bytes : (fun (crc : Nat) (byte : UInt8) => crcBits 8 (crc ^^^ byte.toNat <<< 8)) = crcByte 16 0x1021 := by
    funext crc byte
    exact crcBits_eq 8 _
  unfold redisSlot slotOf
  dsimp only
  rw [bytes, foldl_crcByte (by decide) (by decide)]

theorem commandSlot_eq (carried : HasKey parts key) : commandSlot parts = some (redisSlot key) := by
  cases carried with
  | eval _ _ _ _ named => simp [commandSlot, named]
  | first key rest other keyed =>
    unfold commandSlot
    simp only [getElem?_cons_zero, getD_some, getElem?_cons_succ]
    rw [if_neg other]
    dsimp only
    rw [if_neg keyed]

/-- A command is sent to the slot of its key exactly if the key is unambiguous, or the other text that is hashed of it
is in the same slot by chance. -/
theorem commandSlot_is_keySlot {parts : List String} {key : String} (carried : HasKey parts key) :
    commandSlot parts = some (keySlot key) ↔ Unambiguous key.toList ∨ Collides key.toList := by
  rw [commandSlot_eq carried, redisSlot_eq, some_inj, keySlot, ← matched_eq_hashTag]
  constructor
  · intro slots
    by_cases same : (matchGroup key.toList).getD key.toList = hashTag key.toList
    · exact .inl same
    refine .inr ⟨_, ?_, same, slots⟩
    cases found : matchGroup key.toList with
    | none => exact .inr ⟨rfl, matchGroup_eq_none.mp found⟩
    | some group => exact .inl (matchGroup_eq_some.mp found)
  · rintro (same | ⟨_, first | ⟨rfl, nowhere⟩, -, _⟩)
    · rw [same]
    · rwa [matchGroup_eq_some.mpr first]
    · rwa [matchGroup_eq_none.mpr nowhere]

/-- The check of the digits that a check is usually tested with. -/
example : redisSlot "123456789" = 0x31C3 := by decide +kernel

theorem following_key_is_routed :
    commandSlot ["GET", "\x7buser1000\x7d.following"] = some (keySlot "\x7buser1000\x7d.following") := by
  refine (commandSlot_is_keySlot (.first _ [] (by decide +kernel) (by decide +kernel))).mpr (.inl ?_)
  rw [← matched_eq_hashTag]
  decide +kernel

/-- Of this key the whole is hashed, as its first braces enclose nothing; the client hashes one letter. -/
theorem empty_braces_misroute : commandSlot ["GET", "\x7b\x7d\x7ba\x7d"] ≠ some (keySlot "\x7b\x7d\x7ba\x7d") := by
  have whole : keySlot "\x7b\x7d\x7ba\x7d" = crc 16 0x1021 (encode "\x7b\x7d\x7ba\x7d".toList) % 16384 := by
    unfold keySlot slotOf
    have tag : hashTag "\x7b\x7d\x7ba\x7d".toList = "\x7b\x7d\x7ba\x7d".toList := by decide +kernel
    rw [tag]
  rw [whole, ← foldl_crcByte (by decide) (by decide)]
  decide +kernel

end Applik8s.Valkey
