import Mathlib.Data.Nat.NthRoot.Defs
import Mathlib.Algebra.Order.Group.Nat

/-! SHA-256 as FIPS 180-4 has it: on words of 32 bits whose sums wrap, with the constants as what they are, the
beginnings of the fractional parts of roots of primes. Messages are made of whole bytes. -/
namespace Applik8s.Lib.Sha256

abbrev Word := BitVec 32

/-- The eight words of a hash value, and the working variables of a block. -/
structure Registers (α : Type) where
  a : α
  b : α
  c : α
  d : α
  e : α
  f : α
  g : α
  h : α
  deriving DecidableEq

namespace Registers
variable {α β γ : Type}

def map (change : α → β) (registers : Registers α) : Registers β :=
  ⟨change registers.a, change registers.b, change registers.c, change registers.d, change registers.e,
    change registers.f, change registers.g, change registers.h⟩

def zip (combine : α → β → γ) (left : Registers α) (right : Registers β) : Registers γ :=
  ⟨combine left.a right.a, combine left.b right.b, combine left.c right.c, combine left.d right.d,
    combine left.e right.e, combine left.f right.f, combine left.g right.g, combine left.h right.h⟩

def toList (registers : Registers α) : List α :=
  [registers.a, registers.b, registers.c, registers.d, registers.e, registers.f, registers.g, registers.h]

end Registers

def primes : List Nat :=
  [2, 3, 5, 7, 11, 13, 17, 19, 23, 29, 31, 37, 41, 43, 47, 53, 59, 61, 67, 71, 73, 79, 83, 89, 97, 101, 103, 107, 109,
    113, 127, 131, 137, 139, 149, 151, 157, 163, 167, 173, 179, 181, 191, 193, 197, 199, 211, 223, 227, 229, 233, 239,
    241, 251, 257, 263, 269, 271, 277, 281, 283, 293, 307, 311]

def fraction (degree value : Nat) : Word := BitVec.ofNat 32 (Nat.nthRoot degree (value * 2 ^ (32 * degree)))
def constants : List Word := primes.map (fraction 3)
def initial : Registers Word := (⟨2, 3, 5, 7, 11, 13, 17, 19⟩ : Registers Nat).map (fraction 2)
def choose (x y z : Word) : Word := (x &&& y) ^^^ (~~~x &&& z)
def majority (x y z : Word) : Word := (x &&& y) ^^^ (x &&& z) ^^^ (y &&& z)

variable (x : Word) (hash : Registers Word) (message : List UInt8) (block : Nat → Word)

def bigSigma0 : Word := x.rotateRight 2 ^^^ x.rotateRight 13 ^^^ x.rotateRight 22
def bigSigma1 : Word := x.rotateRight 6 ^^^ x.rotateRight 11 ^^^ x.rotateRight 25
def smallSigma0 : Word := x.rotateRight 7 ^^^ x.rotateRight 18 ^^^ (x >>> 3)
def smallSigma1 : Word := x.rotateRight 17 ^^^ x.rotateRight 19 ^^^ (x >>> 10)

/-- The zeros between the bit that closes the message and its length, for the whole to fill blocks of 64 bytes. -/
def zeros (length : Nat) : Nat := (119 - length % 64) % 64

/-- A number in as many bytes, the most significant first. -/
def bigEndian : Nat → Nat → List UInt8
  | 0, _ => []
  | bytes + 1, value => bigEndian bytes (value / 256) ++ [UInt8.ofNat (value % 256)]

def padded : List UInt8 :=
  message ++ 0x80 :: List.replicate (zeros message.length) 0 ++ bigEndian 8 (8 * message.length)

@[simp] theorem bigEndian_length (bytes value : Nat) : (bigEndian bytes value).length = bytes := by
  induction bytes generalizing value with
  | zero => rfl
  | succ bytes ih => rw [bigEndian, List.length_append, ih, List.length_singleton]

theorem padded_length (msg : List UInt8) : (padded msg).length = msg.length + 1 + zeros msg.length + 8 := by
  simp only [padded, List.length_append, List.length_cons, List.length_replicate, bigEndian_length]
  omega

theorem padded_blocks (msg : List UInt8) : (padded msg).length % 64 = 0 := by
  rw [padded_length, zeros]
  omega

def wordAt (bytes : List UInt8) (place : Nat) : Word :=
  bytes[place]?.elim 0 (·.toBitVec) ++ bytes[place + 1]?.elim 0 (·.toBitVec) ++
    bytes[place + 2]?.elim 0 (·.toBitVec) ++ bytes[place + 3]?.elim 0 (·.toBitVec)

def schedule (block : Nat → Word) (index : Nat) : Word :=
  if index < 16 then block index
  else
    smallSigma1 (schedule block (index - 2)) + schedule block (index - 7) +
      smallSigma0 (schedule block (index - 15)) + schedule block (index - 16)
  termination_by index

def round (registers : Registers Word) (constant word : Word) : Registers Word :=
  let ⟨a, b, c, d, e, f, g, h⟩ := registers
  let temporary1 := h + bigSigma1 e + choose e f g + constant + word
  let temporary2 := bigSigma0 a + majority a b c
  ⟨temporary1 + temporary2, a, b, c, d + temporary1, e, f, g⟩

/-- The working variables after the first rounds of a block. -/
def rounds (count : Nat) : Registers Word :=
  (List.range count).foldl (fun registers index =>
    round registers (constants[index]?.getD 0) (schedule block index)) hash

def compress : Registers Word :=
  hash.zip (· + ·) (rounds hash block 64)

def hashed (bytes : List UInt8) (blocks : Nat) : Registers Word :=
  (List.range blocks).foldl (fun hash number =>
    compress hash fun index => wordAt bytes (64 * number + 4 * index)) initial

def hexDigits : Nat → Nat → List Char
  | 0, _ => []
  | digits + 1, value => hexDigits digits (value / 16) ++ [Nat.digitChar (value % 16)]

def digest : List Char :=
  (hashed (padded message) ((padded message).length / 64)).toList.flatMap fun word => hexDigits 8 word.toNat

end Applik8s.Lib.Sha256
