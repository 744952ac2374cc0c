import Mathlib.Algebra.Order.BigOperators.Group.List
import Mathlib.Algebra.Order.Group.Nat

/-! UTF-8 as a decoder that is fed piece by piece. It takes one byte at a time, so what it has decoded of
the pieces is what it decodes of their concatenation, wherever these were cut. -/
namespace Applik8s.Lib
open List Nat

def encode (text : List Char) : List UInt8 := text.flatMap String.utf8EncodeChar
def byteLength (text : List Char) : Nat := (encode text).length

/-- A decoder between two bytes: what it has of a code point, and which bytes may follow. -/
structure Decoder where
  point : Nat := 0
  needed : Nat := 0
  lower : Nat := 0x80
  upper : Nat := 0xBF
  deriving DecidableEq

namespace Decoder

def replacement : Char := Char.ofNat 0xFFFD

def first (byte : Nat) : Decoder × List Char :=
  if byte ≤ 0x7F then ({}, [Char.ofNat byte])
  else if 0xC2 ≤ byte ∧ byte ≤ 0xDF then ({ point := byte - 0xC0, needed := 1 }, [])
  else if 0xE0 ≤ byte ∧ byte ≤ 0xEF then
    ({ point := byte - 0xE0, needed := 2, lower := if byte = 0xE0 then 0xA0 else 0x80,
       upper := if byte = 0xED then 0x9F else 0xBF }, [])
  else if 0xF0 ≤ byte ∧ byte ≤ 0xF4 then
    ({ point := byte - 0xF0, needed := 3, lower := if byte = 0xF0 then 0x90 else 0x80,
       upper := if byte = 0xF4 then 0x8F else 0xBF }, [])
  else ({}, [replacement])

def step (decoder : Decoder) (byte : Nat) : Decoder × List Char :=
  if decoder.needed = 0 then first byte
  else if byte < decoder.lower ∨ decoder.upper < byte then
    ((first byte).1, replacement :: (first byte).2)
  else
    let point := decoder.point * 64 + (byte - 0x80)
    if decoder.needed = 1 then ({}, [Char.ofNat point]) else ({ point, needed := decoder.needed - 1 }, [])

def decode (decoder : Decoder) : List UInt8 → Decoder × List Char
  | [] => (decoder, [])
  | byte :: rest =>
    let (next, chars) := decoder.step byte.toNat
    let (last, more) := next.decode rest
    (last, chars ++ more)

theorem decode_append (decoder : Decoder) (earlier later : List UInt8) : decoder.decode (earlier ++ later) =
      (((decoder.decode earlier).1.decode later).1,
        (decoder.decode earlier).2 ++ ((decoder.decode earlier).1.decode later).2) := by
  induction earlier generalizing decoder with
  | nil => rfl
  | cons byte rest ih => simp [cons_append, decode, ih, append_assoc]

theorem point_valid (char : Char) : char.toNat < 0xD800 ∨ 0xDFFF < char.toNat ∧ char.toNat < 0x110000 :=
  char.valid

variable {decoder : Decoder}

private theorem decode_cons (next : Decoder) (taken : decoder.step byte.toNat = (next, []))
    : decoder.decode (byte :: rest) = next.decode rest := by
  simp [decode, taken, nil_append]

private theorem decode_last (taken : decoder.step byte.toNat = ({}, [char]))
    : decoder.decode [byte] = ({}, [char]) := by
  simp [decode, taken, append_nil]

private theorem step_further (needed : 1 < decoder.needed) (lower : decoder.lower ≤ byte)
    (upper : byte ≤ decoder.upper) : decoder.step byte =
      ({ point := decoder.point * 64 + (byte - 0x80), needed := decoder.needed - 1 }, []) := by
  rw [step, if_neg (by omega), if_neg (by omega)]
  exact if_neg (by omega)

private theorem step_last (needed : decoder.needed = 1) (lower : decoder.lower ≤ byte) (upper : byte ≤ decoder.upper) :
    decoder.step byte = ({}, [Char.ofNat (decoder.point * 64 + (byte - 0x80))]) := by
  rw [step, if_neg (by omega), if_neg (by omega)]
  exact if_pos needed

private theorem toNat_ofNat {value : Nat} (is : value = byte) (small : byte < 256) :
    (UInt8.ofNat value).toNat = byte := by
  subst is
  simp [mod_eq_of_lt small]

private theorem decode_tail (needed : decoder.needed = 1) (lower : decoder.lower = 0x80)
    (upper : decoder.upper = 0xBF) (whole : Char.ofNat value = char) (point : decoder.point = value / 64) :
    decoder.decode [UInt8.ofNat (value % 64 + 128)] = ({}, [char]) := by
  refine decode_last ?_
  rw [toNat_ofNat rfl (by omega), step_last needed (by omega) (by omega)]
  rw [show decoder.point * 64 + (value % 64 + 128 - 0x80) = value by omega, whole]

private theorem decode_further {needed : Nat} (waiting : decoder.needed = needed + 1) (more : 0 < needed)
    (lower : decoder.lower ≤ value % 64 + 128) (upper : value % 64 + 128 ≤ decoder.upper)
    (point : decoder.point = value / 64) :
    decoder.decode (UInt8.ofNat (value % 64 + 128) :: rest) = ({ point := value, needed } : Decoder).decode rest := by
  refine decode_cons _ ?_
  rw [toNat_ofNat rfl (by omega), step_further (by omega) lower upper]
  rw [show decoder.point * 64 + (value % 64 + 128 - 0x80) = value by omega, waiting, Nat.add_sub_cancel]

theorem decode_encodeChar (char : Char) : ({} : Decoder).decode (String.utf8EncodeChar char) = ({}, [char]) := by
  have valid := point_valid char
  have whole : Char.ofNat char.toNat = char := Char.ofNat_toNat char
  have value_is : char.val.toNat = char.toNat := rfl
  unfold String.utf8EncodeChar
  dsimp only
  rw [value_is]
  generalize char.toNat = value at valid whole
  split
  · next one =>
    refine decode_last ?_
    rw [toNat_ofNat rfl (by omega)]
    refine (if_pos rfl).trans ((if_pos one).trans ?_)
    rw [whole]
  next one =>
  split
  · next two =>
    refine (decode_cons { point := value / 64, needed := 1 } ?_).trans (decode_tail rfl rfl rfl whole rfl)
    rw [show (UInt8.ofNat (value / 64 % 32 + 192)).toNat = value / 64 + 0xC0 from toNat_ofNat (by omega) (by omega)]
    refine (if_pos rfl).trans ((if_neg (by omega)).trans ((if_pos (by omega)).trans ?_))
    rw [Nat.add_sub_cancel]
  next two =>
  split
  · next three =>
    refine (decode_cons { point := value / 4096, needed := 2
                          lower := if value / 4096 + 0xE0 = 0xE0 then 0xA0 else 0x80
                          upper := if value / 4096 + 0xE0 = 0xED then 0x9F else 0xBF } ?_).trans ?_
    · rw [show (UInt8.ofNat (value / 4096 % 16 + 224)).toNat = value / 4096 + 0xE0 from toNat_ofNat (by omega) (by omega)]
      refine (if_pos rfl).trans ((if_neg (by omega)).trans ((if_neg (by omega)).trans ((if_pos (by omega)).trans ?_)))
      rw [Nat.add_sub_cancel]
    refine (decode_further rfl one_pos ?_ ?_ ?_).trans (decode_tail rfl rfl rfl whole rfl)
    · dsimp only
      split <;> omega
    · dsimp only
      split <;> omega
    · dsimp only
      omega
  · next three =>
    refine (decode_cons { point := value / 262144, needed := 3
                          lower := if value / 262144 + 0xF0 = 0xF0 then 0x90 else 0x80
                          upper := if value / 262144 + 0xF0 = 0xF4 then 0x8F else 0xBF } ?_).trans ?_
    · rw [show (UInt8.ofNat (value / 262144 % 8 + 240)).toNat = value / 262144 + 0xF0 from toNat_ofNat (by omega) (by omega)]
      refine (if_pos rfl).trans ((if_neg (by omega)).trans ((if_neg (by omega)).trans
        ((if_neg (by omega)).trans ((if_pos (by omega)).trans ?_))))
      rw [Nat.add_sub_cancel]
    refine (decode_further rfl Nat.two_pos ?_ ?_ ?_).trans
      ((decode_further rfl one_pos ?_ ?_ ?_).trans (decode_tail rfl rfl rfl whole rfl))
    · dsimp only
      split <;> omega
    · dsimp only
      split <;> omega
    · dsimp only
      omega
    · dsimp only
      omega
    · dsimp only
      omega
    · dsimp only
      omega

theorem decode_encode (text : List Char) : ({} : Decoder).decode (encode text) = ({}, text) := by
  induction text with
  | nil => rfl
  | cons char rest ih =>
    change ({} : Decoder).decode (String.utf8EncodeChar char ++ encode rest) = _
    rw [decode_append, decode_encodeChar, ih]
    rfl

theorem decode_prefix (part : bytes <+: encode text) : (({} : Decoder).decode bytes).2 <+: text := by
  obtain ⟨rest, whole⟩ := part
  have both := decode_append {} bytes rest
  rw [whole, decode_encode] at both
  exact ⟨_, (congrArg Prod.snd both).symm⟩

end Decoder

@[simp] theorem encode_nil : encode [] = [] := rfl

@[simp] theorem encode_append (earlier later : List Char) :
    encode (earlier ++ later) = encode earlier ++ encode later := flatMap_append

theorem byteLength_le_of_sublist (sublist : List.Sublist part whole) : byteLength part ≤ byteLength whole := by
  simp only [byteLength, encode, length_flatMap]
  exact (sublist.map _).sum_le_sum fun _ _ => zero_le _

theorem encode_eq_nil : encode text = [] ↔ text = [] := by
  cases text with
  | nil => simp
  | cons char rest =>
    simp only [encode, flatMap_cons, append_eq_nil_iff, reduceCtorEq, iff_false, not_and]
    intro empty
    have := String.length_utf8EncodeChar char
    rw [empty] at this
    exact absurd this.symm (Char.utf8Size_pos char).ne'

end Applik8s.Lib
