import Mathlib.Tactic

/-!
Message trees and their proto2 wire format.

A message is the list of its set fields in the order of their numbers. A field is a scalar, a
sub-message or a repeated sub-message; on the wire each is a key followed by a varint or by a
length and that many bytes, and a repeated field is its elements one after another.
-/

namespace Magicicada.Wire

/-- The value of a scalar field. Booleans and enumeration values are numbers, and negative
numbers are written modulo `2 ^ 64`. -/
inductive Scalar
  | varint (n : ℕ)
  | str (s : String)
  | bytes (b : List UInt8)
  deriving DecidableEq

/-- A set field, with its name and number. The elements of a repeated field are messages of
that name and number. -/
inductive Tree
  | scalar (name : String) (number : ℕ) (v : Scalar)
  | message (name : String) (number : ℕ) (fields : List Tree)
  | repeated (name : String) (number : ℕ) (elems : List Tree)

/-- Seven bits a byte, lowest first, with the high bit set on all bytes but the last. -/
def base128 (n : ℕ) : List UInt8 :=
  if n < 128 then [UInt8.ofNat n] else UInt8.ofNat (n % 128 + 128) :: base128 (n / 128)

/-- How a signed number is written. -/
def ofInt (i : ℤ) : ℕ := (i % 2 ^ 64).toNat

def utf8 (s : String) : List UInt8 := s.toUTF8.data.toList

/-- The key of a field with a wire type. -/
def key (number wireType : ℕ) : List UInt8 := base128 (8 * number + wireType)

/-- A length and that many bytes. -/
def delimited (b : List UInt8) : List UInt8 := base128 b.length ++ b

def Scalar.encode (number : ℕ) : Scalar → List UInt8
  | .varint n => key number 0 ++ base128 n
  | .str s => key number 2 ++ delimited (utf8 s)
  | .bytes b => key number 2 ++ delimited b

mutual

/-- The bytes of one field. -/
def Tree.encode : Tree → List UInt8
  | .scalar _ number v => v.encode number
  | .message _ number fields => key number 2 ++ delimited (encodeAll fields)
  | .repeated _ _ elems => encodeAll elems

/-- The bytes of a message, given its set fields. -/
def encodeAll : List Tree → List UInt8
  | [] => []
  | t :: ts => t.encode ++ encodeAll ts

end

@[simp] lemma encodeAll_nil : encodeAll [] = [] := by rw [encodeAll]

@[simp] lemma encodeAll_cons (t : Tree) (ts : List Tree) :
    encodeAll (t :: ts) = t.encode ++ encodeAll ts := by
  rw [encodeAll]

lemma base128_of_lt {n : ℕ} (h : n < 128) : base128 n = [UInt8.ofNat n] := by
  rw [base128, if_pos h]

end Magicicada.Wire
