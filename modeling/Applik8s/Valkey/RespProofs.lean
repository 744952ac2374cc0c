import Applik8s.Valkey.Resp

/-! What `parseResp` makes of the replies of a server: of a whole reply what it says, and of a part of one
nothing yet, unless the part says already how the reply fails. -/
namespace Applik8s.Valkey
open Lib List Nat
open Reply (encode encodeAll meaning meanings)

theorem cutLine_line (oneLine : ∀ byte ∈ line, byte ≠ 13 ∧ byte ≠ 10) (rest : List UInt8) :
    cutLine (line ++ 13 :: 10 :: rest) = some (line, rest) := by
  induction line with
  | nil => rfl
  | cons byte line ih =>
    have first := (oneLine byte mem_cons_self).1
    rw [cons_append, cutLine, ih fun other among => oneLine other (mem_cons_of_mem _ among)]
    · rfl
    · intro _ same
      exact absurd same first

theorem cutLine_none (unended : ∀ byte ∈ bytes, byte ≠ 10) : cutLine bytes = none := by
  induction bytes with
  | nil => rfl
  | cons byte rest ih =>
    rw [cutLine, ih fun other among => unended other (mem_cons_of_mem _ among)]
    · rfl
    · rintro _ - rfl
      exact unended 10 (by simp) rfl

theorem text_encode (chars : List Char) : text (encode chars) = chars := by
  rw [text, Decoder.decode_encode]
  rfl

theorem decimal_oneLine (value : Int) : ∀ byte ∈ encode (decimal value), byte ≠ 13 ∧ byte ≠ 10 := by
  intro byte among
  obtain ⟨char, given, is⟩ := mem_flatMap.mp among
  have range := decimal_range value char given
  have single : String.utf8EncodeChar char = [UInt8.ofNat char.toNat] := by
    exact if_pos (show char.toNat ≤ 127 by omega)
  rw [single, mem_singleton] at is
  have value : byte.toNat = char.toNat := by
    rw [is]
    simp only [UInt8.toNat_ofNat']
    omega
  constructor <;> rintro rfl <;> simp only [UInt8.reduceToNat] at value <;> omega

private theorem parse_digits {tail : List Char} (same : tail = Nat.toDigits 10 value) :
    ¬ (tail = [] ∨ ¬ tail.all Char.isDigit) ∧ Nat.ofDigitChars 10 tail 0 = value := by
  subst same
  refine ⟨?_, ofDigitChars_ten_toDigits⟩
  rintro (empty | other)
  · exact toDigits_ne_nil empty
  · exact other (all_eq_true.mpr fun char among => toDigits_isDigit among)

theorem parseInteger_decimal (value : Int) : parseInteger (decimal value) = integerMeaning value := by
  cases value with
  | ofNat value =>
    obtain ⟨numeric, is⟩ := parse_digits (rfl : Nat.toDigits 10 value = _)
    simp only [parseInteger, decimal, toDigits_head value, if_false, if_neg numeric, is]
    rfl
  | negSucc value =>
    obtain ⟨numeric, is⟩ := parse_digits (rfl : Nat.toDigits 10 (value + 1) = _)
    simp only [parseInteger, decimal, head?_cons, tail_cons, if_true, if_neg numeric, is]
    rfl

/-! ### How deep arrays are nested -/

theorem cutLine_length (cut : cutLine bytes = some (line, left)) : left.length < bytes.length := by
  induction bytes using cutLine.induct generalizing line with
  | case1 => cases cut
  | case2 rest =>
    cases cut
    simp only [length_cons]
    omega
  | case3 byte rest other ih =>
    rw [cutLine] at cut
    · obtain ⟨⟨_, _⟩, inner, is⟩ := Option.map_eq_some_iff.mp cut
      cases is
      exact lt_succ_of_lt (ih inner)
    · exact other

def Shortens {α : Type} (parse : Parse α) : Prop :=
  ∀ input value rest, parse input = .ok (value, rest) → rest.length ≤ input.length

theorem parseItems_shortens (shortens : Shortens parse) (count : Nat) : Shortens (parseItems parse count) := by
  induction count with
  | zero =>
    intro input values rest done
    cases done
    exact le_refl _
  | succ count ih =>
    intro input values rest done
    rw [parseItems] at done
    split at done
    · cases done
    next value middle first =>
    split at done
    · cases done
    next values' last others =>
    cases done
    exact (ih _ _ _ others).trans (shortens _ _ _ first)

theorem parseBody_shortens (shortens : Shortens parse) (type : UInt8) (line : List Char)
    : Shortens (parseBody parse type line) := by
  intro next value rest done
  unfold parseBody at done
  repeat' split at done
  all_goals first
    | (cases done; exact le_refl _)
    | (cases done; simp only [length_drop]; omega)
    | cases done
  next items => exact parseItems_shortens shortens _ _ _ _ items

theorem parseNested_shortens (depth : Nat) : Shortens (parseNested depth) := by
  induction depth with
  | zero =>
    intro input value rest done
    cases done
  | succ depth ih =>
    intro input value rest done
    unfold parseNested at done
    split at done
    · next cut => exact (parseBody_shortens ih _ _ _ _ _ done).trans (cutLine_length cut).le
    · cases done

theorem parseItems_congr (shortens : Shortens parse) (count : Nat) (input : List UInt8)
    (same : ∀ other : List UInt8, other.length ≤ input.length → parse other = parse' other) :
    parseItems parse count input = parseItems parse' count input := by
  induction count generalizing input with
  | zero => rfl
  | succ count ih =>
    rw [parseItems, parseItems, ← same input (le_refl _)]
    cases first : parse input with
    | error halt => rfl
    | ok parsed =>
      have shorter := shortens input parsed.1 parsed.2 first
      dsimp only
      rw [ih parsed.2 fun other within => same other (within.trans shorter)]

theorem parseBody_congr (shortens : Shortens parse) (type : UInt8) (line : List Char) (next : List UInt8)
    (same : ∀ other : List UInt8, other.length ≤ next.length → parse other = parse' other) :
    parseBody parse type line next = parseBody parse' type line next := by
  unfold parseBody
  cases parseInteger line with
  | error => rfl
  | ok count => simp [parseItems_congr shortens count.toNat next same]

theorem parseNested_deeper (depth depth' : Nat) (input : List UInt8) (enough : input.length < depth)
    (enough' : input.length < depth') : parseNested depth input = parseNested depth' input := by
  induction depth generalizing depth' input with
  | zero => exact absurd enough (not_lt_zero _)
  | succ depth ih =>
    obtain ⟨depth', rfl⟩ : ∃ less, depth' = less + 1 := ⟨depth' - 1, by omega⟩
    unfold parseNested
    split
    · next cut =>
      have shorter := cutLine_length cut
      refine parseBody_congr (parseNested_shortens depth) _ _ _ fun other within => ?_
      exact ih depth' other (by omega) (by omega)
    · rfl

section
variable {type : UInt8} {line : List UInt8} (typed : type ≠ 13 ∧ type ≠ 10)
  (oneLine : ∀ byte ∈ line, byte ≠ 13 ∧ byte ≠ 10)

include typed oneLine

theorem parseNested_line (depth : Nat) (next : List UInt8) :
    parseNested (depth + 1) (type :: line ++ [13, 10] ++ next) =
      parseBody (parseNested depth) type (text line) next := by
  have cut : cutLine (type :: line ++ [13, 10] ++ next) = some (type :: line, next) := by
    rw [append_assoc]
    exact cutLine_line (forall_mem_cons.mpr ⟨typed, oneLine⟩) next
  rw [cons_append, cons_append] at cut ⊢
  simp only [parseNested, cut, tail_cons]

theorem line_part (part : early <+: type :: line ++ [13, 10] ++ body) :
    cutLine early = none ∨ ∃ rest, early = type :: line ++ [13, 10] ++ rest ∧ rest <+: body := by
  rcases prefix_or_prefix_of_prefix part (prefix_append _ body) with within | ⟨rest, is⟩
  · have split : type :: line ++ [13, 10] = (type :: line ++ [13]) ++ [10] := by simp
    rw [split, prefix_concat_iff] at within
    rcases within with rfl | within
    · exact .inr ⟨[], by simp, nil_prefix⟩
    refine .inl (cutLine_none fun byte among => ?_)
    rcases mem_append.mp (within.subset among) with among | among
    · exact ((forall_mem_cons.mpr ⟨typed, oneLine⟩ : ∀ byte ∈ type :: line, _) byte among).2
    · rw [mem_singleton.mp among]
      decide
  · exact .inr ⟨rest, is.symm, (prefix_append_right_inj _).mp (is ▸ part)⟩

theorem line_alone (part : early <+: type :: line ++ [13, 10]) (proper : early ≠ type :: line ++ [13, 10]) :
    cutLine early = none := by
  rcases line_part typed oneLine (by rwa [append_nil] : early <+: type :: line ++ [13, 10] ++ []) with
    none_ | ⟨rest, is, within⟩
  · exact none_
  · rw [prefix_nil.mp within, append_nil] at is
    exact absurd is proper

end

theorem parseNested_unended (unended : cutLine early = none) (depth : Nat) :
    parseNested depth early = .error .incomplete := by
  cases depth with
  | zero => rfl
  | succ depth => simp [parseNested, unended]

/-! What follows the line of a bulk string, and of an array. -/

def parseBulk (length : Nat) (next : List UInt8) : Except (Halt Failure) (ValkeyResponse × List UInt8) :=
  if next.length < length + 2 then .error .incomplete
  else .ok (.text (String.ofList (text (next.take length))), next.drop (length + 2))

variable (parse : Parse ValkeyResponse)

def parseArray (count : Nat) (next : List UInt8) :
    Except (Halt Failure) (ValkeyResponse × List UInt8) :=
  match parseItems parse count next with
  | .error halt => .error halt
  | .ok (values, rest) => .ok (.array values, rest)

private theorem integerMeaning_ok (is : integerMeaning value = .ok res) : res = value := by
  unfold integerMeaning at is
  split at is
  · exact (Except.ok.inj is).symm
  · cases is

private theorem counted {length : Nat} : ¬ (length : Int) = -1 ∧ ¬ (length : Int) < -1 := by omega

theorem parseBody_bulk (length : Nat) (next : List UInt8) : parseBody parse 36 (decimal length) next =
      match integerMeaning length with
      | .error err => .error (.failed err)
      | .ok length => parseBulk length.toNat next := by
  rw [parseBody, if_neg (by decide), if_neg (by decide), if_neg (by decide), if_pos rfl, parseInteger_decimal]
  cases is : integerMeaning length with
  | error => rfl
  | ok value =>
    cases integerMeaning_ok is
    dsimp only
    rw [if_neg counted.1, if_neg counted.2]
    rfl

theorem parseBody_array (count : Nat) (next : List UInt8) : parseBody parse 42 (decimal count) next =
      match integerMeaning count with
      | .error err => .error (.failed err)
      | .ok count => parseArray parse count.toNat next := by
  rw [parseBody, if_neg (by decide), if_neg (by decide), if_neg (by decide), if_neg (by decide), if_pos rfl,
    parseInteger_decimal]
  cases is : integerMeaning count with
  | error => rfl
  | ok value =>
    cases integerMeaning_ok is
    dsimp only
    rw [if_neg counted.1, if_neg counted.2]
    rfl

theorem parseBulk_whole (bytes rest : List UInt8) :
    parseBulk bytes.length (bytes ++ [13, 10] ++ rest) = .ok (.text (String.ofList (text bytes)), rest) := by
  have enough : ¬ (bytes ++ [13, 10] ++ rest).length < bytes.length + 2 := by
    simp only [length_append, length_cons, length_nil]
    omega
  have behind : (bytes ++ [13, 10] ++ rest).drop (bytes.length + 2) = rest :=
    drop_left' (by simp)
  rw [parseBulk, if_neg enough, behind, append_assoc, take_left]

theorem parseBulk_part {length : Nat} (short : left.length < length + 2) :
    parseBulk length left = .error .incomplete := if_pos short

/-- Of two texts one after the other either a part of the first has arrived, or all of it and more. -/
theorem part_append {first : List UInt8} (part : early <+: first ++ second) :
    (early <+: first ∧ early ≠ first) ∨ ∃ rest, early = first ++ rest ∧ rest <+: second := by
  rcases prefix_or_prefix_of_prefix part (prefix_append first second) with within | ⟨rest, is⟩
  · by_cases same : early = first
    · exact .inr ⟨[], by simp [same], nil_prefix⟩
    · exact .inl ⟨within, same⟩
  · exact .inr ⟨rest, is.symm, (prefix_append_right_inj _).mp (is ▸ part)⟩

mutual

theorem parse_whole (reply : Reply) (depth : Nat) (rest : List UInt8) (enough : (reply.encode ++ rest).length < depth) :
    parseNested depth (reply.encode ++ rest) = told rest reply.meaning := by
  obtain ⟨depth, rfl⟩ : ∃ less, depth = less + 1 := ⟨depth - 1, by omega⟩
  cases reply with
  | simple line => exact parseNested_line (by decide) line.oneLine depth rest
  | error line => exact parseNested_line (by decide) line.oneLine depth rest
  | integer value =>
    refine (parseNested_line (by decide) (decimal_oneLine value) depth rest).trans ?_
    rw [text_encode, parseBody, if_neg (by decide), if_pos rfl, parseInteger_decimal, Reply.meaning]
    cases integerMeaning value <;> rfl
  | nullBulk =>
    refine (parseNested_line (by decide) (decimal_oneLine (-1)) depth rest).trans ?_
    rw [text_encode, parseBody]
    rfl
  | nullArray =>
    refine (parseNested_line (by decide) (decimal_oneLine (-1)) depth rest).trans ?_
    rw [text_encode, parseBody]
    rfl
  | bulk bytes =>
    rw [Reply.encode, append_assoc _ (bytes ++ [13, 10]) rest]
    refine (parseNested_line (by decide) (decimal_oneLine bytes.length) depth _).trans ?_
    rw [text_encode, parseBody_bulk]
    unfold Reply.meaning
    cases is : integerMeaning bytes.length with
    | error => rfl
    | ok length =>
      rw [integerMeaning_ok is]
      exact parseBulk_whole bytes rest
  | array items =>
    rw [Reply.encode, append_assoc _ (Reply.encodeAll items) rest] at enough ⊢
    refine (parseNested_line (by decide) (decimal_oneLine items.length) depth _).trans ?_
    rw [text_encode, parseBody_array]
    unfold Reply.meaning
    cases is : integerMeaning items.length with
    | error => rfl
    | ok count =>
      rw [integerMeaning_ok is]
      dsimp only [Int.toNat_natCast]
      rw [parseArray, parseItems_whole items depth rest (by
        simp only [length_append, length_cons] at enough ⊢
        omega)]
      cases Reply.meanings items <;> rfl

theorem parseItems_whole (replies : List Reply) (depth : Nat) (rest : List UInt8)
    (enough : (encodeAll replies ++ rest).length < depth) :
    parseItems (parseNested depth) replies.length (encodeAll replies ++ rest) =
      told rest (meanings replies) := by
  cases replies with
  | nil => rfl
  | cons reply replies =>
    rw [encodeAll, append_assoc] at enough ⊢
    rw [length_cons, parseItems, parse_whole reply depth _ enough]
    unfold meanings
    cases reply.meaning with
    | error => rfl
    | ok value =>
      rw [told]
      dsimp only
      rw [parseItems_whole replies depth rest (by simp only [length_append] at enough ⊢; omega)]
      cases meanings replies <;> rfl

end

mutual

theorem parse_part (reply : Reply) (depth : Nat) (early : List UInt8) (part : early <+: reply.encode)
    (proper : early ≠ reply.encode) (enough : early.length < depth) : parseNested depth early = .error .incomplete ∨
      ∃ err, reply.meaning = .error err ∧ parseNested depth early = .error (.failed err) := by
  obtain ⟨depth, rfl⟩ : ∃ less, depth = less + 1 := ⟨depth - 1, by omega⟩
  have unended : cutLine early = none → parseNested (depth + 1) early = .error .incomplete :=
    fun none_ => parseNested_unended none_ _
  cases reply with
  | simple line => exact .inl (unended (line_alone (by decide) line.oneLine part proper))
  | error line => exact .inl (unended (line_alone (by decide) line.oneLine part proper))
  | integer value => exact .inl (unended (line_alone (by decide) (decimal_oneLine value) part proper))
  | nullBulk => exact .inl (unended (line_alone (by decide) (decimal_oneLine (-1)) part proper))
  | nullArray => exact .inl (unended (line_alone (by decide) (decimal_oneLine (-1)) part proper))
  | bulk bytes =>
    rcases line_part (by decide) (decimal_oneLine bytes.length) part with none_ | ⟨rest, rfl, within⟩
    · exact .inl (unended none_)
    have short : rest.length < bytes.length + 2 := by
      have less := List.IsPrefix.length_le within
      have other : rest.length ≠ (bytes ++ [13, 10]).length :=
        fun same => proper (by rw [within.eq_of_length same, Reply.encode])
      simp only [length_append, length_cons, length_nil] at less other
      omega
    rw [parseNested_line (by decide) (decimal_oneLine bytes.length), text_encode, parseBody_bulk]
    unfold Reply.meaning
    cases is : integerMeaning bytes.length with
    | error err => exact .inr ⟨err, rfl, rfl⟩
    | ok length =>
      rw [integerMeaning_ok is]
      exact .inl (parseBulk_part short)
  | array items =>
    rcases line_part (by decide) (decimal_oneLine items.length) part with none_ | ⟨rest, rfl, within⟩
    · exact .inl (unended none_)
    rw [parseNested_line (by decide) (decimal_oneLine items.length), text_encode, parseBody_array]
    unfold Reply.meaning
    cases is : integerMeaning items.length with
    | error err => exact .inr ⟨err, rfl, rfl⟩
    | ok count =>
      rw [integerMeaning_ok is]
      dsimp only [Int.toNat_natCast]
      rw [parseArray]
      rcases parseItems_part items depth rest within (fun same => proper (by rw [same, Reply.encode]))
        (by simp only [length_append, length_cons] at enough; omega) with waits | ⟨err, fails, waits⟩
      · rw [waits]
        exact .inl rfl
      · rw [waits, fails]
        exact .inr ⟨err, rfl, rfl⟩

theorem parseItems_part (replies : List Reply) (depth : Nat) (early : List UInt8)
    (part : early <+: encodeAll replies) (proper : early ≠ encodeAll replies)
    (enough : early.length < depth) : parseItems (parseNested depth) replies.length early = .error .incomplete ∨
      ∃ err, meanings replies = .error err ∧
        parseItems (parseNested depth) replies.length early = .error (.failed err) := by
  cases replies with
  | nil => exact absurd (prefix_nil.mp part) proper
  | cons reply replies =>
    rw [encodeAll] at part proper
    rw [length_cons, parseItems]
    unfold meanings
    rcases part_append part with ⟨within, short⟩ | ⟨rest, rfl, within⟩
    · rcases parse_part reply depth early within short enough with waits | ⟨err, fails, waits⟩
      · rw [waits]
        exact .inl rfl
      · rw [waits, fails]
        exact .inr ⟨err, rfl, rfl⟩
    rw [parse_whole reply depth rest enough]
    cases reply.meaning with
    | error err => exact .inr ⟨err, rfl, rfl⟩
    | ok value =>
      rw [told]
      dsimp only
      rcases parseItems_part replies depth rest within (fun same => proper (by rw [same]))
        (by simp only [length_append] at enough; omega) with waits | ⟨err, fails, waits⟩
      · rw [waits]
        exact .inl rfl
      · rw [waits, fails]
        exact .inr ⟨err, rfl, rfl⟩

end

theorem encode_ne_nil (reply : Reply) : reply.encode ≠ [] := by
  cases reply <;> simp [Reply.encode]

/-- `parseResp` reads the replies of a server. -/
def resp : Frames UInt8 Reply ValkeyResponse Failure where
  read := parseResp
  encode := Reply.encode
  meaning := Reply.meaning
  encode_ne_nil := encode_ne_nil
  whole reply rest := parse_whole reply _ rest (lt_succ_self _)
  part reply early part proper := parse_part reply _ early part proper (lt_succ_self _)

end Applik8s.Valkey
