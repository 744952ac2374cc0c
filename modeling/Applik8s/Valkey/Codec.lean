import Applik8s.Valkey.Connection

/-! The codec of `valkey-protocol.ts`: what is encoded is parsed, and a parser that has read a reply would have waited at
every cut of it, and reads it whatever follows. -/
namespace Applik8s.Valkey
open Lib List Nat
open String (ofList utf8EncodeChar)

/-- A parser that reads what it reads off the bytes it takes: it needs all of them, and none behind them. -/
def Incremental {α : Type} (parse : Parse α) : Prop :=
  ∀ input value rest, parse input = .ok (value, rest) →
    ∃ read, input = read ++ rest ∧ (∀ more, parse (read ++ more) = .ok (value, more)) ∧
      ∀ early, early <+: read → early ≠ read → parse early = .error .incomplete

theorem cutLine_incremental (cut : cutLine input = some (line, left)) :
    input = line ++ [13, 10] ++ left ∧ (∀ more, cutLine (line ++ [13, 10] ++ more) = some (line, more)) ∧
      ∀ early, early <+: line ++ [13, 10] → early ≠ line ++ [13, 10] → cutLine early = none := by
  induction input using cutLine.induct generalizing line with
  | case1 => cases cut
  | case2 rest =>
    cases cut
    refine ⟨rfl, fun more => rfl, fun early part proper => ?_⟩
    have short : early.length < 2 := by
      have less := List.IsPrefix.length_le part
      have other : early.length ≠ 2 := fun same => proper (part.eq_of_length same)
      simp only [nil_append, length_cons, length_nil] at less
      omega
    cases early with
    | nil => rfl
    | cons only tail =>
      obtain rfl : tail = [] := eq_nil_of_length_eq_zero (by rw [length_cons] at short; omega)
      rw [cutLine]
      · rfl
      · simp
  | case3 byte rest other ih =>
    rw [cutLine] at cut
    · obtain ⟨⟨line', _⟩, inner, is⟩ := Option.map_eq_some_iff.mp cut
      cases is
      obtain ⟨rfl, whole, waits⟩ := ih inner
      have apart : ∀ more tail : List UInt8, byte = 13 → line' ++ [13, 10] ++ more ≠ 10 :: tail := by
        intro more tail same begins
        cases line' with
        | nil => cases begins
        | cons first line' =>
          rw [cons_append, cons_append, cons.injEq] at begins
          refine other (line' ++ [13, 10] ++ left) same ?_
          rw [← begins.1]
          rfl
      refine ⟨rfl, fun more => ?_, fun early part proper => ?_⟩
      · rw [cons_append, cons_append, cutLine, whole more]
        · rfl
        · exact fun tail same begins => apart more tail same begins
      cases early with
      | nil => rfl
      | cons first early =>
        rw [cons_append, cons_prefix_cons] at part
        obtain ⟨rfl, part⟩ := part
        rw [cutLine, waits early part fun same => proper (by rw [same]; rfl)]
        · rfl
        rintro tail same rfl
        obtain ⟨behind, is⟩ := part
        exact apart [] (tail ++ behind) same (by rw [append_nil, ← is]; rfl)
    · exact other

theorem parseItems_incremental (incremental : Incremental parse) (count : Nat) :
    Incremental (parseItems parse count) := by
  induction count with
  | zero =>
    intro input values rest done
    cases done
    exact ⟨[], rfl, fun more => rfl, fun early part proper => absurd (prefix_nil.mp part) proper⟩
  | succ count ih =>
    intro input values rest done
    rw [parseItems] at done
    split at done
    · cases done
    next value middle first =>
    split at done
    · cases done
    next values' last others =>
    cases done
    obtain ⟨read, rfl, whole, waits⟩ := incremental _ _ _ first
    obtain ⟨read', rfl, whole', waits'⟩ := ih _ _ _ others
    refine ⟨read ++ read', by simp, fun more => ?_, fun early part proper => ?_⟩
    · rw [append_assoc, parseItems, whole]
      dsimp only
      rw [whole']
    rw [parseItems]
    rcases part_append part with ⟨within, short⟩ | ⟨tail, rfl, within⟩
    · rw [waits early within short]
    rw [whole]
    dsimp only
    rw [waits' tail within fun same => proper (by rw [same])]

private theorem incremental_constant {α : Type} {parse : Parse α} {next : List UInt8} {value : α}
    (always : ∀ more, parse more = .ok (value, more)) :
    ∃ read, next = read ++ next ∧ (∀ more, parse (read ++ more) = .ok (value, more)) ∧
      ∀ early, early <+: read → early ≠ read → parse early = .error .incomplete :=
  ⟨[], rfl, always, fun _ part proper => absurd (prefix_nil.mp part) proper⟩

theorem parseBulk_incremental (length : Nat) : Incremental (parseBulk length) := by
  intro input value rest done
  unfold parseBulk at done
  split at done
  · cases done
  next enough =>
  cases done
  have taken : (input.take (length + 2)).length = length + 2 := by
    rw [length_take]
    omega
  refine ⟨input.take (length + 2), (take_append_drop _ _).symm, fun more => ?_, fun early part proper => ?_⟩
  · have whole : ¬ (input.take (length + 2) ++ more).length < length + 2 := by
      rw [length_append]
      omega
    have behind : (input.take (length + 2) ++ more).drop (length + 2) = more := drop_left' taken
    have inside : (input.take (length + 2) ++ more).take length = input.take length := by
      rw [take_append_of_le_length (by omega), take_take]
      congr 1
      omega
    rw [parseBulk, if_neg whole, behind, inside]
  · refine parseBulk_part ?_
    have less := List.IsPrefix.length_le part
    have other : early.length ≠ (input.take (length + 2)).length := fun same => proper (part.eq_of_length same)
    omega

theorem parseArray_incremental (incremental : Incremental parse) (count : Nat) :
    Incremental (parseArray parse count) := by
  intro input value rest done
  unfold parseArray at done
  split at done
  · cases done
  next values last items =>
  cases done
  obtain ⟨read, is, whole, waits⟩ := parseItems_incremental incremental count _ _ _ items
  refine ⟨read, is, fun more => ?_, fun early part proper => ?_⟩
  · rw [parseArray, whole]
  · rw [parseArray, waits early part proper]

theorem parseBody_incremental (incremental : Incremental parse) (type : UInt8) (line : List Char)
    : Incremental (parseBody parse type line) := by
  have failing : ∀ halt, parseBody parse type line = (fun _ => .error halt) → Incremental (parseBody parse type line) := by
    intro halt is input value rest done
    rw [is] at done
    cases done
  have constant : ∀ held, parseBody parse type line = (fun next => .ok (held, next)) →
      Incremental (parseBody parse type line) := by
    intro held is input value rest done
    rw [is] at done ⊢
    cases done
    exact incremental_constant fun _ => rfl
  by_cases simple : type = 43
  · exact constant (.text (ofList line)) (by funext next; rw [parseBody, if_pos simple])
  by_cases integer : type = 58
  · cases num : parseInteger line with
    | error err => exact failing (.failed err) (by funext next; rw [parseBody, if_neg simple, if_pos integer, num])
    | ok held => exact constant (.integer held) (by funext next; rw [parseBody, if_neg simple, if_pos integer, num])
  by_cases server : type = 45
  · exact failing (.failed (.server (ofList line)))
      (by funext next; rw [parseBody, if_neg simple, if_neg integer, if_pos server])
  by_cases bulk : type = 36
  · have is : ∀ next, parseBody parse type line next = _ := fun next => by
      rw [parseBody, if_neg simple, if_neg integer, if_neg server, if_pos bulk]
    cases num : parseInteger line with
    | error err => exact failing (.failed err) (by funext next; rw [is, num])
    | ok length =>
      by_cases absent : length = -1
      · exact constant .null (by funext next; rw [is, num]; exact if_pos absent)
      by_cases negative : length < -1
      · refine failing (.failed (.invalidBulkLength length)) ?_
        funext next
        rw [is, num]
        exact (if_neg absent).trans (if_pos negative)
      have same : parseBody parse type line = parseBulk length.toNat := by
        funext next
        rw [is, num]
        exact (if_neg absent).trans (if_neg negative)
      rw [same]
      exact parseBulk_incremental length.toNat
  by_cases array : type = 42
  · have is : ∀ next, parseBody parse type line next = _ := fun next => by
      rw [parseBody, if_neg simple, if_neg integer, if_neg server, if_neg bulk, if_pos array]
    cases num : parseInteger line with
    | error err => exact failing (.failed err) (by funext next; rw [is, num])
    | ok count =>
      by_cases absent : count = -1
      · exact constant .null (by funext next; rw [is, num]; exact if_pos absent)
      by_cases negative : count < -1
      · refine failing (.failed (.invalidArrayLength count)) ?_
        funext next
        rw [is, num]
        exact (if_neg absent).trans (if_pos negative)
      have same : parseBody parse type line = parseArray parse count.toNat := by
        funext next
        rw [is, num]
        exact (if_neg absent).trans (if_neg negative)
      rw [same]
      exact parseArray_incremental incremental count.toNat
  refine failing (.failed (.unsupportedType type)) ?_
  funext next
  rw [parseBody, if_neg simple, if_neg integer, if_neg server, if_neg bulk, if_neg array]

theorem parseNested_incremental (depth : Nat) : Incremental (parseNested depth) := by
  induction depth with
  | zero =>
    intro input value rest done
    cases done
  | succ depth ih =>
    intro input value rest done
    unfold parseNested at done
    split at done
    · next type behind line next cut =>
      obtain ⟨read, rfl, whole, waits⟩ := parseBody_incremental ih _ _ _ _ _ done
      obtain ⟨is, cuts, unended⟩ := cutLine_incremental cut
      have begins : ∀ more, ∃ tail, line ++ [13, 10] ++ more = type :: tail := by
        intro more
        cases line with
        | nil =>
          rw [nil_append, cons_append, cons_append, cons.injEq] at is
          exact ⟨10 :: more, by rw [is.1]; rfl⟩
        | cons first line =>
          rw [cons_append, cons_append, cons.injEq] at is
          exact ⟨line ++ [13, 10] ++ more, by rw [is.1]; rfl⟩
      have enters : ∀ more, parseNested (depth + 1) (line ++ [13, 10] ++ more) =
          parseBody (parseNested depth) type (text line.tail) more := by
        intro more
        obtain ⟨tail, same⟩ := begins more
        have cut := cuts more
        rw [same] at cut ⊢
        simp [parseNested, cut]
      refine ⟨line ++ [13, 10] ++ read, ?_, fun more => ?_, fun early part proper => ?_⟩
      · rw [is, append_assoc _ read]
      · rw [append_assoc _ read, enters, whole]
      rcases part_append part with ⟨within, short⟩ | ⟨tail, rfl, within⟩
      · exact parseNested_unended (unended early within short) _
      · rw [enters]
        exact waits tail within fun same => proper (by rw [same])
    · cases done

theorem parseResp_whole (done : parseResp reply = .ok (value, [])) :
    (∀ early, early <+: reply → early ≠ reply → parseResp early = .error .incomplete) ∧
      ∀ more, parseResp (reply ++ more) = .ok (value, more) := by
  have deeper : ∀ depth, reply.length < depth → parseNested depth reply = .ok (value, []) := by
    intro depth enough
    rw [← done]
    exact parseNested_deeper depth _ reply enough (lt_succ_self _)
  constructor
  · intro early part proper
    obtain ⟨read, is, -, waits⟩ := parseNested_incremental _ _ _ _ (deeper (reply.length + 1) (lt_succ_self _))
    rw [append_nil] at is
    subst is
    have shorter := List.IsPrefix.length_le part
    have same := parseNested_deeper (early.length + 1) (reply.length + 1) early (lt_succ_self _) (by omega)
    exact same.trans (waits early part proper)
  intro more
  have enough : reply.length < (reply ++ more).length + 1 := by
    rw [length_append]
    omega
  obtain ⟨_, is, whole, -⟩ := parseNested_incremental _ _ _ _ (deeper _ enough)
  rw [append_nil] at is
  subst is
  exact whole more

/-- `ValkeyArgument`: a string, or a number, which is a safe integer. -/
inductive ValkeyArgument where
  | string (value : String)
  | number (value : Int) (safe : value.natAbs ≤ maxSafeInteger)

/-- `String(part)`. -/
def ValkeyArgument.text : ValkeyArgument → String
  | .string value => value
  | .number value _ => ofList (decimal value)

theorem encode_append (one two : List Char) : encode (one ++ two) = encode one ++ encode two := flatMap_append

theorem encode_heading (typed : utf8EncodeChar lead = [type]) (length : Nat) :
    encode (lead :: (decimal length ++ ['\r', '\n'])) = type :: encode (decimal length) ++ [13, 10] := by
  have first : encode (lead :: (decimal length ++ ['\r', '\n'])) =
      utf8EncodeChar lead ++ encode (decimal length ++ ['\r', '\n']) := rfl
  rw [first, typed, encode_append]
  rfl

variable (parts : List String)

theorem encodeResp_eq :
    encodeResp parts = (Reply.array (parts.map fun part => .bulk (encode part.toList))).encode := by
  have heading : ∀ length : Nat, (s!"*{length}\r\n").toList = '*' :: (decimal length ++ ['\r', '\n']) := by
    intro length
    simp [decimal]
    rfl
  have subheading : ∀ length : Nat, (s!"${length}\r\n").toList = '$' :: (decimal length ++ ['\r', '\n']) := by
    intro length
    simp [decimal]
    rfl
  have bulks : parts.flatMap (fun part => encode s!"${byteLength part.toList}\r\n".toList ++ encode part.toList ++
      encode "\r\n".toList) = Reply.encodeAll (parts.map fun part => .bulk (encode part.toList)) := by
    induction parts with
    | nil => rfl
    | cons part parts ih =>
      rw [flatMap_cons, ih, map_cons, Reply.encodeAll, Reply.encode, subheading,
        encode_heading (by decide : utf8EncodeChar '$' = [36]), append_assoc _ (encode part.toList)]
      rfl
  rw [encodeResp, bulks, Reply.encode, heading, encode_heading (by decide : utf8EncodeChar '*' = [42]), length_map]

private theorem bulk_length_le {parts : List String} (among : part ∈ parts) :
    (encode part.toList).length ≤ (Reply.encodeAll (parts.map fun part => .bulk (encode part.toList))).length := by
  induction parts with
  | nil => cases among
  | cons _ _ ih =>
    rw [map_cons, Reply.encodeAll, length_append]
    rcases mem_cons.mp among with rfl | later
    · simp only [Reply.encode, length_append]
      omega
    · exact (ih later).trans (le_add_left _ _)

private theorem parts_length_le :
    parts.length ≤ (Reply.encodeAll (parts.map fun part => .bulk (encode part.toList))).length := by
  induction parts with
  | nil => exact le_refl _
  | cons first =>
    have some_ := length_pos_iff.mpr (encode_ne_nil (.bulk (encode first.toList)))
    rw [map_cons, Reply.encodeAll, length_append, length_cons]
    omega

theorem meanings_bulk {parts : List String} (small : ∀ part ∈ parts, (encode part.toList).length ≤ maxSafeInteger) :
    Reply.meanings (parts.map fun part => .bulk (encode part.toList)) = .ok (parts.map ValkeyResponse.text) := by
  induction parts with
  | nil => rfl
  | cons part parts ih =>
    obtain ⟨here, later⟩ := forall_mem_cons.mp small
    have safe : integerMeaning (encode part.toList).length = .ok (encode part.toList).length := if_pos here
    rw [map_cons, Reply.meanings, Reply.meaning, safe, ih later, text_encode, String.ofList_toList]
    rfl

/-- What is encoded is parsed, as far as its bytes: a buffer is no longer than a safe integer counts. -/
theorem parseResp_encodeResp (fits : (encodeResp parts).length ≤ maxSafeInteger) :
    parseResp (encodeResp parts) = .ok (.array (parts.map ValkeyResponse.text), []) := by
  have whole := resp.whole (Reply.array (parts.map fun part => .bulk (encode part.toList))) []
  rw [append_nil] at whole
  rw [encodeResp_eq] at fits ⊢
  have inside : (Reply.encodeAll (parts.map fun part => .bulk (encode part.toList))).length ≤ maxSafeInteger := by
    rw [Reply.encode, length_append] at fits
    omega
  have counted : integerMeaning (parts.map fun part => Reply.bulk (encode part.toList)).length =
      .ok (parts.map fun part => Reply.bulk (encode part.toList)).length := by
    refine if_pos ?_
    rw [length_map]
    exact (parts_length_le parts).trans inside
  refine whole.trans ?_
  have meaning : (Reply.array (parts.map fun part => .bulk (encode part.toList))).meaning =
      .ok (.array (parts.map ValkeyResponse.text)) := by
    rw [Reply.meaning, counted, meanings_bulk fun part among => (bulk_length_le among).trans inside]
    rfl
  change told [] (Reply.array _).meaning = _
  rw [meaning]
  rfl

/-- What is encoded of arguments is parsed to their texts, to the last byte. What is parsed to the last byte is parsed
the same whatever follows, and of no part of it anything is made. -/
theorem resp_codec :
    (∀ parts : List ValkeyArgument, parts ≠ [] → (encodeResp (parts.map ValkeyArgument.text)).length ≤ maxSafeInteger →
      parseResp (encodeResp (parts.map ValkeyArgument.text)) =
        .ok (.array (parts.map fun part => .text part.text), [])) ∧
    ∀ reply value, parseResp reply = .ok (value, []) →
      (∀ early, early <+: reply → early ≠ reply → parseResp early = .error .incomplete) ∧
        ∀ more, parseResp (reply ++ more) = .ok (value, more) := by
  refine ⟨fun parts _ fits => ?_, fun reply value done => parseResp_whole done⟩
  rw [parseResp_encodeResp _ fits, map_map]
  rfl

/-- A command with a line break in its value; and of a reply with a string and an integer, all but the last byte. -/
theorem set_codec :
    parseResp (encodeResp ["SET", "a\r\nb", "7"]) = .ok (.array [.text "SET", .text "a\r\nb", .text "7"], []) ∧
    parseResp [42, 50, 13, 10, 36, 49, 13, 10, 120, 13, 10, 58, 49, 50, 13] = .error .incomplete := by
  constructor
  · exact resp_codec.1 [.string "SET", .string "a\r\nb", .number 7 (by decide)] (by simp) (by decide +kernel)
  have whole : parseResp [42, 50, 13, 10, 36, 49, 13, 10, 120, 13, 10, 58, 49, 50, 13, 10] =
      .ok (.array [.text (ofList ['x']), .integer 12], []) := by rfl
  exact (resp_codec.2 _ _ whole).1 _ (by decide) (by decide)

end Applik8s.Valkey
