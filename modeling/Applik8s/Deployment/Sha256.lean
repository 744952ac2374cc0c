import Applik8s.Lib.Number
import Applik8s.Lib.Sha256
import Applik8s.Lib.Utf8

/-! The digest that a deployment graph is known by, computed by hand in numbers and their 32-bit operators, and
SHA-256. -/
namespace Applik8s.Deployment
open Lib Lib.Number List Option
open Lib.Sha256 (Registers Word)
open Lib.Sha256 (bigEndian bigSigma0 bigSigma1 choose compress hashed hexDigits padded schedule smallSigma0 smallSigma1 wordAt)
open UInt8 (ofNat toNat_ofNat')

def rotateRight (value : Int) (bits : Nat) : Int := bitOr (shiftRight value bits) (shiftLeft value (32 - bits))

def codePointBytes (codePoint : Int) : List Int :=
  if codePoint ≤ 0x7f then [codePoint]
  else if codePoint ≤ 0x7ff then
    [bitOr 0xc0 (shiftRight codePoint 6), bitOr 0x80 (bitAnd codePoint 0x3f)]
  else if codePoint ≤ 0xffff then
    [bitOr 0xe0 (shiftRight codePoint 12), bitOr 0x80 (bitAnd (shiftRight codePoint 6) 0x3f),
      bitOr 0x80 (bitAnd codePoint 0x3f)]
  else
    [bitOr 0xf0 (shiftRight codePoint 18), bitOr 0x80 (bitAnd (shiftRight codePoint 12) 0x3f),
      bitOr 0x80 (bitAnd (shiftRight codePoint 6) 0x3f), bitOr 0x80 (bitAnd codePoint 0x3f)]

def utf8Bytes (value : String) : List Int := value.toList.flatMap fun character => codePointBytes character.toNat

namespace sha256Hex

def constants : List Int :=
  [0x428a2f98, 0x71374491, 0xb5c0fbcf, 0xe9b5dba5, 0x3956c25b,
    0x59f111f1, 0x923f82a4, 0xab1c5ed5, 0xd807aa98, 0x12835b01,
    0x243185be, 0x550c7dc3, 0x72be5d74, 0x80deb1fe, 0x9bdc06a7,
    0xc19bf174, 0xe49b69c1, 0xefbe4786, 0x0fc19dc6, 0x240ca1cc,
    0x2de92c6f, 0x4a7484aa, 0x5cb0a9dc, 0x76f988da, 0x983e5152,
    0xa831c66d, 0xb00327c8, 0xbf597fc7, 0xc6e00bf3, 0xd5a79147,
    0x06ca6351, 0x14292967, 0x27b70a85, 0x2e1b2138, 0x4d2c6dfc,
    0x53380d13, 0x650a7354, 0x766a0abb, 0x81c2c92e, 0x92722c85,
    0xa2bfe8a1, 0xa81a664b, 0xc24b8b70, 0xc76c51a3, 0xd192e819,
    0xd6990624, 0xf40e3585, 0x106aa070, 0x19a4c116, 0x1e376c08,
    0x2748774c, 0x34b0bcb5, 0x391c0cb3, 0x4ed8aa4a, 0x5b9cca4f,
    0x682e6ff3, 0x748f82ee, 0x78a5636f, 0x84c87814, 0x8cc70208,
    0x90befffa, 0xa4506ceb, 0xbef9a3f7, 0xc67178f2]

def initial : Registers Int :=
  ⟨0x6a09e667, 0xbb67ae85, 0x3c6ef372, 0xa54ff53a, 0x510e527f, 0x9b05688c, 0x1f83d9ab, 0x5be0cd19⟩

/-- `while (bytes.length % 64 !== 56) bytes.push(0)`. -/
def pushZeros (bytes : List Int) : List Int :=
  if bytes.length % 64 = 56 then bytes else pushZeros (bytes ++ [0])
  termination_by (120 - bytes.length % 64) % 64
  decreasing_by
    rw [length_append, length_singleton]
    omega

variable (bytes : List Int)

/-- The bytes with their padding. A quotient by a power of two is exact. -/
def pad : List Int :=
  let bitLength := times bytes.length 8
  let high := bitLength / 0x100000000
  let low := shiftRight bitLength 0
  pushZeros (bytes ++ [0x80]) ++ [24, 16, 8, 0].map (fun shift => bitAnd (shiftRight high shift) 0xff) ++
    [24, 16, 8, 0].map (fun shift => bitAnd (shiftRight low shift) 0xff)

variable (offset : Nat) (words : List Int)

def loadWord (index : Nat) : List Int :=
  let start := offset + index * 4
  words.set index (shiftRight
      (bitOr (bitOr (bitOr (shiftLeft (bytes[start]?.getD 0) 24) (shiftLeft (bytes[start + 1]?.getD 0) 16))
        (shiftLeft (bytes[start + 2]?.getD 0) 8)) (bytes[start + 3]?.getD 0)) 0)

def loadWords : List Int :=
  (range 16).foldl (loadWord bytes offset) words

/-- The second loop, once: a word that follows from those before it. -/
def extendWord (index : Nat) : List Int :=
  let word15 := words[index - 15]?.getD 0
  let word2 := words[index - 2]?.getD 0
  let small0 := bitXor (bitXor (rotateRight word15 7) (rotateRight word15 18)) (shiftRight word15 3)
  let small1 := bitXor (bitXor (rotateRight word2 17) (rotateRight word2 19)) (shiftRight word2 10)
  words.set index
    (shiftRight (plus (plus (plus (words[index - 16]?.getD 0) small0) (words[index - 7]?.getD 0)) small1) 0)

def extendWords : List Int := (range' 16 48).foldl extendWord words

def round (registers : Registers Int) (constant word : Int) : Registers Int :=
  let ⟨a, b, c, d, e, f, g, h⟩ := registers
  let upper1 := bitXor (bitXor (rotateRight e 6) (rotateRight e 11)) (rotateRight e 25)
  let choice := bitXor (bitAnd e f) (bitAnd (bitNot e) g)
  let temporary1 := shiftRight (plus (plus (plus (plus h upper1) choice) constant) word) 0
  let upper0 := bitXor (bitXor (rotateRight a 2) (rotateRight a 13)) (rotateRight a 22)
  let majority := bitXor (bitXor (bitAnd a b) (bitAnd a c)) (bitAnd b c)
  let temporary2 := shiftRight (plus upper0 majority) 0
  ⟨shiftRight (plus temporary1 temporary2) 0, a, b, c, shiftRight (plus d temporary1) 0, e, f, g⟩

def rounds (hash : Registers Int) (words : List Int) (count : Nat) : Registers Int :=
  (range count).foldl (fun registers index =>
    round registers (constants[index]?.getD 0) (words[index]?.getD 0)) hash

structure State where
  hash : Registers Int
  words : List Int

def block (state : State) (offset : Nat) : State :=
  let words := extendWords (loadWords bytes offset state.words)
  { hash := state.hash.zip (fun hash working => shiftRight (plus hash working) 0) (rounds state.hash words 64),
    words }

def blocks (count : Nat) : State :=
  (range count).foldl (fun state number => block bytes state (64 * number)) { hash := initial, words := replicate 64 0 }

/-- `word.toString(16).padStart(8, "0")`, for an unsigned word. -/
def hexWord (word : Int) : List Char := (Nat.toDigits 16 word.toNat).leftpad 8 '0'

end sha256Hex

open sha256Hex in
def sha256Hex (value : String) : String :=
  let bytes := pad (utf8Bytes value)
  String.ofList ((blocks bytes ((bytes.length + 63) / 64)).hash.toList.flatMap fun word => hexWord (shiftRight word 0))

namespace sha256Hex
variable {value : Int}

private theorem word_rotateRight (some : 0 < bits) (few : bits < 32) :
    word (rotateRight value bits) = (word value).rotateRight bits := by
  rw [rotateRight, word_bitOr, word_shiftRight, word_shiftLeft, BitVec.rotateRight_def, Nat.mod_eq_of_lt few,
    Nat.mod_eq_of_lt (show 32 - bits < 32 by omega)]

private theorem word_rotations (first : 0 < one ∧ one < 32) (second : 0 < two ∧ two < 32)
    (third : 0 < three ∧ three < 32) :
    word (bitXor (bitXor (rotateRight value one) (rotateRight value two)) (rotateRight value three)) =
      (word value).rotateRight one ^^^ (word value).rotateRight two ^^^ (word value).rotateRight three := by
  rw [word_bitXor, word_bitXor, word_rotateRight first.1 first.2, word_rotateRight second.1 second.2,
    word_rotateRight third.1 third.2]

private theorem word_rotations_shift (first : 0 < one ∧ one < 32) (second : 0 < two ∧ two < 32) (third : three < 32) :
    word (bitXor (bitXor (rotateRight value one) (rotateRight value two)) (shiftRight value three)) =
      (word value).rotateRight one ^^^ (word value).rotateRight two ^^^ word value >>> three := by
  rw [word_bitXor, word_bitXor, word_rotateRight first.1 first.2, word_rotateRight second.1 second.2,
    word_shiftRight, Nat.mod_eq_of_lt third]

private theorem within_bitXor (left right : Int) : Within 1 (bitXor left right) := within_toInt _

private theorem round_number (registers : Registers Word) (constant word : Word) :
    round (registers.map number) (number constant) (number word) =
      (Lib.Sha256.round registers constant word).map number := by
  obtain ⟨a, b, c, d, e, f, g, h⟩ := registers
  have upper1 : Number.word (bitXor (bitXor (rotateRight (number e) 6) (rotateRight (number e) 11))
      (rotateRight (number e) 25)) = Lib.Sha256.bigSigma1 e := by
    rw [word_rotations (by decide) (by decide) (by decide), word_number, Lib.Sha256.bigSigma1]
  have upper0 : Number.word (bitXor (bitXor (rotateRight (number a) 2) (rotateRight (number a) 13))
      (rotateRight (number a) 22)) = Lib.Sha256.bigSigma0 a := by
    rw [word_rotations (by decide) (by decide) (by decide), word_number, Lib.Sha256.bigSigma0]
  have choice : Number.word (bitXor (bitAnd (number e) (number f)) (bitAnd (bitNot (number e)) (number g))) =
      Lib.Sha256.choose e f g := by
    simp [Lib.Sha256.choose]
  have majority : Number.word (bitXor (bitXor (bitAnd (number a) (number b)) (bitAnd (number a) (number c)))
      (bitAnd (number b) (number c))) = Lib.Sha256.majority a b c := by
    simp [Lib.Sha256.majority]
  obtain ⟨two, twoSum⟩ := (within_number h).plus (within_bitXor
    (bitXor (rotateRight (number e) 6) (rotateRight (number e) 11)) (rotateRight (number e) 25)) (by decide)
  obtain ⟨three, threeSum⟩ := two.plus (within_bitXor
    (bitAnd (number e) (number f)) (bitAnd (bitNot (number e)) (number g))) (by decide)
  obtain ⟨four, fourSum⟩ := three.plus (within_number constant) (by decide)
  obtain ⟨-, fiveSum⟩ := four.plus (within_number word) (by decide)
  obtain ⟨-, otherSum⟩ := (within_bitXor (bitXor (rotateRight (number a) 2) (rotateRight (number a) 13))
    (rotateRight (number a) 22)).plus (within_bitXor
      (bitXor (bitAnd (number a) (number b)) (bitAnd (number a) (number c))) (bitAnd (number b) (number c))) (by decide)
  rw [fourSum, threeSum, twoSum, upper1, choice, word_number, word_number, word_number] at fiveSum
  rw [upper0, majority] at otherSum
  simp only [round, Registers.map, shiftRight_zero, fiveSum, otherSum, Lib.Sha256.round, Registers.mk.injEq, and_true,
    true_and]
  constructor
  · rw [((within_number _).plus (within_number _) (by decide)).2, word_number, word_number]
  · rw [((within_number _).plus (within_number _) (by decide)).2, word_number, word_number]

private theorem constants_number (index : Nat) :
    constants[index]?.getD 0 = number (Lib.Sha256.constants[index]?.getD 0) := by
  have same : constants = Lib.Sha256.constants.map number := by decide +kernel
  rw [same, getElem?_map]
  cases Lib.Sha256.constants[index]? <;> rfl

private theorem initial_number : initial = Lib.Sha256.initial.map number := by decide +kernel

private def Scheduled (blockWords : Nat → Word) (count : Nat) (words : List Int) : Prop :=
  words.length = 64 ∧
    ∀ index : Nat, index < count → words[index]? = some (number (Lib.Sha256.schedule blockWords index))

variable {blockWords : Nat → Word} {count : Nat} {words : List Int}

private theorem Scheduled.getD (scheduled : Scheduled blockWords count words) {index : Nat} (earlier : index < count) :
    words[index]?.getD 0 = number (schedule blockWords index) := by
  rw [scheduled.2 index earlier, getD_some]

private theorem Scheduled.set (scheduled : Scheduled blockWords count words) (more : count < 64)
    (next : value = number (schedule blockWords count)) :
    Scheduled blockWords (count + 1) (words.set count value) := by
  refine ⟨by rw [length_set, scheduled.1], fun index earlier => ?_⟩
  by_cases last : index = count
  · subst last
    rw [getElem?_set_self (scheduled.1.symm ▸ more), next]
  · rw [getElem?_set_ne (Ne.symm last), scheduled.2 index (by omega)]

private theorem word_bytes (one two three four : BitVec 8) :
    one.setWidth 32 <<< (24 % 32) ||| two.setWidth 32 <<< (16 % 32) ||| three.setWidth 32 <<< (8 % 32) |||
      four.setWidth 32 = one ++ two ++ three ++ four := by
  ext place below
  grind

private def numbers (bytes : List UInt8) : List Int := bytes.map fun byte => (byte.toNat : Int)

variable (bytes : List UInt8)

private theorem numbers_length : (numbers bytes).length = bytes.length := length_map ..

private theorem wordAt_number (place : Nat) : shiftRight (bitOr (bitOr (bitOr
      (shiftLeft ((numbers bytes)[place]?.getD 0) 24) (shiftLeft ((numbers bytes)[place + 1]?.getD 0) 16))
      (shiftLeft ((numbers bytes)[place + 2]?.getD 0) 8)) ((numbers bytes)[place + 3]?.getD 0)) 0 =
      number (wordAt bytes place) := by
  have read : ∀ place : Nat, word ((numbers bytes)[place]?.getD 0) =
      (bytes[place]?.elim (0 : BitVec 8) (·.toBitVec)).setWidth 32 := by
    intro place
    rw [numbers, getElem?_map]
    cases bytes[place]? with
    | none => rfl
    | some byte =>
      rw [map_some, getD_some, word_natCast, elim_some, ← BitVec.ofNat_toNat]
      rfl
  rw [shiftRight_zero]
  congr 1
  simp only [word_bitOr, word_shiftLeft, read, wordAt]
  exact word_bytes _ _ _ _

private theorem loadWords_scheduled (offset : Nat) (all : words.length = 64) :
    Scheduled (fun index => wordAt bytes (offset + 4 * index)) 16
      (loadWords (numbers bytes) offset words) := by
  suffices loaded : ∀ count ≤ 16, Scheduled (fun index => wordAt bytes (offset + 4 * index)) count
      ((range count).foldl (loadWord (numbers bytes) offset) words) from
    loaded 16 (le_refl 16)
  intro count few
  induction count with
  | zero => exact ⟨all, fun _ none => absurd none (Nat.not_lt_zero _)⟩
  | succ count ih =>
    rw [range_succ, foldl_concat]
    refine (ih (by omega)).set (by omega) ?_
    rw [wordAt_number, schedule, if_pos (by omega), Nat.mul_comm]

private theorem schedule_number (blockWords : Nat → Word) {index : Nat} (later : 16 ≤ index) :
    let word := fun back => number (schedule blockWords (index - back))
    let small0 := bitXor (bitXor (rotateRight (word 15) 7) (rotateRight (word 15) 18)) (shiftRight (word 15) 3)
    let small1 := bitXor (bitXor (rotateRight (word 2) 17) (rotateRight (word 2) 19)) (shiftRight (word 2) 10)
    shiftRight (plus (plus (plus (word 16) small0) (word 7)) small1) 0 =
      number (schedule blockWords index) := by
  intro word small0 small1
  have first : Number.word small0 = smallSigma0 (schedule blockWords (index - 15)) := by
    rw [word_rotations_shift (by decide) (by decide) (by decide), word_number, smallSigma0]
  have second : Number.word small1 = smallSigma1 (schedule blockWords (index - 2)) := by
    rw [word_rotations_shift (by decide) (by decide) (by decide), word_number, smallSigma1]
  obtain ⟨two, twoSum⟩ := (within_number (schedule blockWords (index - 16))).plus
    (within_bitXor _ _ : Within 1 small0) (by decide)
  obtain ⟨three, threeSum⟩ := two.plus (within_number (schedule blockWords (index - 7))) (by decide)
  obtain ⟨-, fourSum⟩ := three.plus (within_bitXor _ _ : Within 1 small1) (by decide)
  rw [threeSum, twoSum, first, second, word_number, word_number] at fourSum
  rw [shiftRight_zero, fourSum]
  congr 1
  conv_rhs => rw [schedule, if_neg (by omega)]
  ac_rfl

private theorem extendWords_scheduled
    (loaded : Scheduled blockWords 16 words) : Scheduled blockWords 64 (extendWords words) := by
  suffices extended : ∀ count ≤ 48,
      Scheduled blockWords (16 + count) ((range' 16 count).foldl extendWord words) from extended 48 (le_refl 48)
  intro count few
  induction count with
  | zero => exact loaded
  | succ count ih =>
    have before := ih (by omega)
    rw [range'_1_concat, foldl_concat]
    refine before.set (by omega) ?_
    simp only [before.getD (show 16 + count - 15 < 16 + count by omega),
      before.getD (show 16 + count - 2 < 16 + count by omega),
      before.getD (show 16 + count - 16 < 16 + count by omega),
      before.getD (show 16 + count - 7 < 16 + count by omega)]
    exact schedule_number blockWords (by omega)

private theorem rounds_number (hash : Registers Word) (scheduled : Scheduled blockWords 64 words) (few : count ≤ 64) :
    rounds (hash.map number) words count = (Lib.Sha256.rounds hash blockWords count).map number := by
  induction count with
  | zero => rfl
  | succ count ih =>
    have before := ih (by omega)
    unfold rounds Lib.Sha256.rounds at before ⊢
    rw [range_succ, foldl_concat, foldl_concat, before, constants_number, scheduled.getD (by omega), round_number]

private theorem zip_number (hash working : Registers Word) :
    (hash.map number).zip (fun hash working => shiftRight (plus hash working) 0) (working.map number) =
      (hash.zip (· + ·) working).map number := by
  have sum : ∀ left right : Word, shiftRight (plus (number left) (number right)) 0 = number (left + right) := by
    intro left right
    rw [shiftRight_zero, ((within_number left).plus (within_number right) (by decide)).2, word_number, word_number]
  simp [Registers.map, Registers.zip, sum]

private theorem block_number {state : State} {hash : Registers Word} (equal : state.hash = hash.map number)
    (all : state.words.length = 64) (offset : Nat) : (block (numbers bytes) state offset).hash =
        (compress hash fun index => wordAt bytes (offset + 4 * index)).map number ∧
      (block (numbers bytes) state offset).words.length = 64 := by
  have scheduled := extendWords_scheduled (loadWords_scheduled bytes offset all)
  unfold block
  dsimp only
  refine ⟨?_, scheduled.1⟩
  rw [equal, rounds_number _ scheduled (le_refl 64), zip_number, compress]

private theorem blocks_number (count : Nat) : (blocks (numbers bytes) count).hash = (hashed bytes count).map number ∧
      (blocks (numbers bytes) count).words.length = 64 := by
  induction count with
  | zero => exact ⟨initial_number, length_replicate⟩
  | succ count ih =>
    unfold blocks hashed at ih ⊢
    rw [range_succ, foldl_concat, foldl_concat]
    exact block_number bytes ih.1 ih.2 (64 * count)

private theorem mark_or (marked : Int) (mark size bits upper : Nat) (marks : marked = mark) (power : size = 2 ^ bits)
    (whole : mark = size * upper) (below : lower < size) (small : mark + size ≤ 256) :
    bitOr marked lower = ((ofNat (lower % size + mark)).toNat : Int) := by
  subst marks power whole
  rw [bitOr_natCast below (by omega), toNat_ofNat', Nat.mod_eq_of_lt below, Nat.mod_eq_of_lt (by omega), Nat.add_comm]

private theorem follows (value : Nat) :
    bitOr 0x80 (bitAnd value 0x3f) = ((ofNat (value % 64 + 128)).toNat : Int) := by
  have lower : bitAnd value 0x3f = (value % 64 : Nat) := bitAnd_natCast value 6 rfl (by decide)
  rw [lower, mark_or 128 128 64 6 2 rfl rfl rfl (by omega) (by decide), Nat.mod_mod]

private theorem codePointBytes_natCast {point : Nat} (small : point < 0x110000) : codePointBytes point =
      (if point ≤ 0x7f then [ofNat point]
      else if point ≤ 0x7ff then [ofNat (point / 64 % 32 + 192), ofNat (point % 64 + 128)]
      else if point ≤ 0xffff then
        [ofNat (point / 4096 % 16 + 224), ofNat (point / 64 % 64 + 128), ofNat (point % 64 + 128)]
      else
        [ofNat (point / 262144 % 8 + 240), ofNat (point / 4096 % 64 + 128),
          ofNat (point / 64 % 64 + 128), ofNat (point % 64 + 128)]).map
        fun byte => (byte.toNat : Int) := by
  have shift6 : shiftRight point 6 = (point / 64 : Nat) := shiftRight_natCast (by omega) (by decide)
  have shift12 : shiftRight point 12 = (point / 4096 : Nat) := shiftRight_natCast (by omega) (by decide)
  have shift18 : shiftRight point 18 = (point / 262144 : Nat) := shiftRight_natCast (by omega) (by decide)
  unfold codePointBytes
  by_cases one : point ≤ 0x7f
  · rw [if_pos (by omega), if_pos one, map_singleton, toNat_ofNat', Nat.mod_eq_of_lt (by omega)]
  rw [if_neg (by omega), if_neg one]
  by_cases two : point ≤ 0x7ff
  · rw [if_pos (by omega), if_pos two, shift6, follows, mark_or 192 192 32 5 6 rfl rfl rfl (by omega) (by decide),
      map_cons, map_singleton]
  rw [if_neg (by omega), if_neg two]
  by_cases three : point ≤ 0xffff
  · rw [if_pos (by omega), if_pos three, shift6, shift12, follows, follows,
      mark_or 224 224 16 4 14 rfl rfl rfl (by omega) (by decide), map_cons, map_cons, map_singleton]
  rw [if_neg (by omega), if_neg three, shift6, shift12, shift18, follows, follows, follows,
    mark_or 240 240 8 3 30 rfl rfl rfl (by omega) (by decide), map_cons, map_cons, map_cons,
    map_singleton]

private theorem utf8Bytes_eq (value : String) : utf8Bytes value = numbers (encode value.toList) := by
  rw [utf8Bytes, numbers, encode, map_flatMap]
  refine flatMap_congr fun character _ => ?_
  have small := Decoder.point_valid character
  exact codePointBytes_natCast (show character.toNat < 0x110000 by omega)

private theorem pushZeros_eq (bytes : List Int) :
    pushZeros bytes = bytes ++ replicate ((120 - bytes.length % 64) % 64) 0 := by
  induction bytes using pushZeros.induct with
  | case1 bytes full => rw [pushZeros, if_pos full, full, replicate_zero, append_nil]
  | case2 bytes more ih =>
    rw [pushZeros, if_neg more, ih, append_assoc, length_append, length_singleton, singleton_append, ← replicate_succ]
    congr 2
    omega

private theorem bigEndian_eq (value : Nat) :
    bigEndian 8 value = ([24, 16, 8, 0].map fun shift => ofNat (value / 2 ^ 32 / 2 ^ shift % 256)) ++
        [24, 16, 8, 0].map fun shift => ofNat (value % 2 ^ 32 / 2 ^ shift % 256) := by
  have byte : ∀ {one other : Nat}, one = other → ofNat one = ofNat other := congrArg _
  simp only [bigEndian, Nat.div_div_eq_div_mul, nil_append, cons_append, map_cons, map_nil, cons.injEq, and_true]
  refine ⟨?_, ?_, ?_, ?_, ?_, ?_, ?_, ?_⟩ <;> exact byte (by omega)

private theorem pad_eq {msg : List UInt8} (short : msg.length < 2 ^ 50) : pad (numbers msg) =
      numbers (padded msg) := by
  have bits : times (numbers msg).length 8 = (8 * msg.length : Nat) := by
    rw [numbers, length_map, times_of_small (by omega)]
    omega
  have high : ((8 * msg.length : Nat) : Int) / 0x100000000 = (8 * msg.length / 2 ^ 32 : Nat) := by omega
  have low : shiftRight (8 * msg.length : Nat) 0 = (8 * msg.length % 2 ^ 32 : Nat) := by
    rw [shiftRight_zero, word_natCast, number, BitVec.toNat_ofNat]
  have bytes : ∀ {value : Nat}, value < 2 ^ 32 →
      [24, 16, 8, 0].map (fun shift => bitAnd (shiftRight value shift) 0xff) =
        ([24, 16, 8, 0].map fun shift => ofNat (value / 2 ^ shift % 256)).map fun byte => (byte.toNat : Int) := by
    intro value small
    rw [List.map_map]
    refine map_congr_left fun shift among => ?_
    have few : shift < 32 := by
      simp only [mem_cons, not_mem_nil, or_false] at among
      omega
    rw [shiftRight_natCast small few, bitAnd_natCast _ 8 (show (0xff : Int) = (2 ^ 8 - 1 : Nat) from rfl) (by decide),
      Function.comp_apply, toNat_ofNat', Nat.mod_mod]
    rfl
  have zeros : (120 - (numbers msg ++ [0x80]).length % 64) % 64 = Lib.Sha256.zeros msg.length := by
    rw [numbers, length_append, length_map, length_singleton, Lib.Sha256.zeros]
    omega
  unfold pad padded
  dsimp only
  rw [bits, high, low, bytes (by omega), bytes (by omega), pushZeros_eq, zeros, bigEndian_eq]
  simp only [numbers, map_append, map_cons, map_replicate, append_assoc, cons_append, nil_append, append_cancel_left_eq]
  rfl

private theorem hexDigits_zero (digits : Nat) : hexDigits digits 0 = replicate digits '0' := by
  induction digits with
  | zero => rfl
  | succ digits ih => rw [hexDigits, Nat.zero_div, ih, replicate_succ']; rfl

private theorem leftpad_toDigits {value : Nat} (some : 0 < digits) (small : value < 16 ^ digits) :
    (Nat.toDigits 16 value).leftpad digits '0' = hexDigits digits value := by
  induction digits generalizing value with
  | zero => exact absurd some (Nat.lt_irrefl 0)
  | succ digits ih =>
    rw [hexDigits]
    by_cases last : value < 16
    · rw [Nat.toDigits_of_lt_base last, Nat.mod_eq_of_lt last, Nat.div_eq_of_lt last, hexDigits_zero, leftpad]
      rfl
    have more : 0 < digits := by
      by_contra none
      rw [Nat.eq_zero_of_not_pos none] at small
      omega
    have fewer : value / 16 < 16 ^ digits := by
      rw [Nat.pow_succ] at small
      omega
    rw [Nat.toDigits_of_base_le (by decide) (Nat.le_of_not_lt last), ← ih more fewer, leftpad, leftpad,
      length_append, length_singleton, Nat.add_sub_add_right, append_assoc]

private theorem hexWord_number (word : Word) :
    hexWord (shiftRight (number word) 0) = hexDigits 8 word.toNat := by
  rw [shiftRight_zero, word_number, hexWord, number, Int.toNat_natCast]
  exact leftpad_toDigits (by decide) word.isLt

end sha256Hex

/-- The digest of a text is that of the standard, of its UTF-8, whatever its length: an array of the language has fewer
than 2 ^ 32 elements, and a number counts the bits of more. -/
theorem sha256Hex_eq_digest {value : String} (short : (utf8Bytes value).length < 2 ^ 50) :
    sha256Hex value = String.ofList (Lib.Sha256.digest (encode value.toList)) := by
  rw [sha256Hex.utf8Bytes_eq, sha256Hex.numbers_length] at short
  have whole := Lib.Sha256.padded_blocks (encode value.toList)
  have count : ((Lib.Sha256.padded (encode value.toList)).length + 63) / 64 =
      (Lib.Sha256.padded (encode value.toList)).length / 64 := by omega
  unfold sha256Hex Lib.Sha256.digest
  dsimp only
  rw [sha256Hex.utf8Bytes_eq, sha256Hex.pad_eq short, sha256Hex.numbers_length, count, (sha256Hex.blocks_number _ _).1]
  simp [Registers.map, Registers.toList, flatMap_cons, flatMap_nil, sha256Hex.hexWord_number]

theorem sha256Hex_abc : (utf8Bytes "abc").length < 2 ^ 50 ∧
      sha256Hex "abc" = String.ofList (Lib.Sha256.digest (encode "abc".toList)) :=
  ⟨by decide, sha256Hex_eq_digest (by decide)⟩

example : sha256Hex "abc" = "ba7816bf8f01cfea414140de5dae2223b00361a396177a9cb410ff61f20015ad" := by decide +kernel

end Applik8s.Deployment
