import Mathlib.Tactic

/-!
`uuid.UUID` of a string, `int` of a string in base 16, and `str` of a UUID.

A UUID is its 128-bit number. Reading one is lenient: `urn:`, `uuid:`, braces and hyphens are
dropped, and what is left is read by `int`, which admits blanks around it, a sign, a `0x`,
single underscores between the digits and the decimal digits of every script.
-/

namespace Magicicada.Uuid

/-! ### `int(s, 16)` -/

/-- The code points of the digits zero. -/
def zeros : List ℕ :=
  [0x30, 0x660, 0x6f0, 0x7c0, 0x966, 0x9e6, 0xa66, 0xae6, 0xb66, 0xbe6, 0xc66, 0xce6, 0xd66, 0xde6,
    0xe50, 0xed0, 0xf20, 0x1040, 0x1090, 0x17e0, 0x1810, 0x1946, 0x19d0, 0x1a80, 0x1a90, 0x1b50,
    0x1bb0, 0x1c40, 0x1c50, 0xa620, 0xa8d0, 0xa900, 0xa9d0, 0xa9f0, 0xaa50, 0xabf0, 0xff10,
    0x104a0, 0x10d30, 0x11066, 0x110f0, 0x11136, 0x111d0, 0x112f0, 0x11450, 0x114d0, 0x11650,
    0x116c0, 0x11730, 0x118e0, 0x11950, 0x11c50, 0x11d50, 0x11da0, 0x16a60, 0x16ac0, 0x16b50,
    0x1d7ce, 0x1d7d8, 0x1d7e2, 0x1d7ec, 0x1d7f6, 0x1e140, 0x1e2f0, 0x1e950, 0x1fbf0]

/-- The code points past ASCII of the blanks. -/
def blanks : List ℕ :=
  [0x85, 0xa0, 0x1680, 0x2000, 0x2001, 0x2002, 0x2003, 0x2004, 0x2005, 0x2006, 0x2007, 0x2008,
    0x2009, 0x200a, 0x2028, 0x2029, 0x202f, 0x205f, 0x3000]

/-- What `int` reads a character as: blanks and decimal digits of any script as their ASCII
counterparts, and other characters past ASCII as one that is no digit. -/
def toAscii (c : Char) : Char :=
  if c.toNat < 128 then c
  else if blanks.contains c.toNat then ' '
  else
    match zeros.find? fun z => z ≤ c.toNat && c.toNat < z + 10 with
    | some z => Char.ofNat (0x30 + (c.toNat - z))
    | none => '?'

def isSpace (c : Char) : Bool := c = ' ' || 9 ≤ c.toNat && c.toNat ≤ 13

def hexDigit (c : Char) : Option ℕ :=
  if '0' ≤ c && c ≤ '9' then some (c.toNat - 0x30)
  else if 'a' ≤ c && c ≤ 'f' then some (c.toNat - 0x61 + 10)
  else if 'A' ≤ c && c ≤ 'F' then some (c.toNat - 0x41 + 10)
  else none

/-- The digits after one, with single underscores between them. -/
def digits : ℕ → List Char → Option ℕ
  | n, [] => some n
  | n, '_' :: c :: s => (hexDigit c).bind fun d => digits (16 * n + d) s
  | n, c :: s => (hexDigit c).bind fun d => digits (16 * n + d) s

/-- `s.strip(..)` of the characters in `p`. -/
def strip (p : Char → Bool) (s : List Char) : List Char :=
  ((s.dropWhile p).reverse.dropWhile p).reverse

def sign : List Char → ℤ × List Char
  | '-' :: s => (-1, s)
  | '+' :: s => (1, s)
  | s => (1, s)

/-- The part after `0x` and at most one underscore. -/
def afterPrefix : List Char → List Char
  | '0' :: 'x' :: '_' :: s | '0' :: 'X' :: '_' :: s | '0' :: 'x' :: s | '0' :: 'X' :: s => s
  | s => s

/-- `int(s, 16)`, or nothing where it raises `ValueError`. -/
def int16 (s : List Char) : Option ℤ :=
  match sign (strip isSpace (s.map toAscii)) with
  | (neg, s) =>
    match afterPrefix s with
    | [] => none
    | c :: s => ((hexDigit c).bind fun d => digits d s).map (neg * ·)

/-! ### `uuid.UUID` -/

/-- `s.replace(pat, '')`, with `skip` characters of an occurrence still to be dropped. -/
def removeAll (pat : List Char) : ℕ → List Char → List Char
  | _, [] => []
  | skip + 1, _ :: s => removeAll pat skip s
  | 0, c :: s =>
    if pat.isPrefixOf (c :: s) then removeAll pat (pat.length - 1) s else c :: removeAll pat 0 s

/-- The digits `uuid.UUID` reads. -/
def hexOf (s : String) : List Char :=
  let hex := removeAll "uuid:".toList 0 (removeAll "urn:".toList 0 s.toList)
  (strip (fun c => c = '\x7b' || c = '\x7d') hex).filter (· ≠ '-')

/-- `uuid.UUID(s)`, with the text of the `ValueError` it raises. -/
def parse (s : String) : Except String ℕ :=
  if (hexOf s).length ≠ 32 then .error "badly formed hexadecimal UUID string"
  else
    match int16 (hexOf s) with
    | none => .error "invalid literal for int() with base 16"
    | some i =>
      if 0 ≤ i ∧ i < 2 ^ 128 then .ok i.toNat
      else .error "int is out of range (need a 128-bit value)"

def hexChar (d : ℕ) : Char := if d < 10 then Char.ofNat (0x30 + d) else Char.ofNat (0x61 + (d - 10))

/-- The last `k` hexadecimal digits of a number. -/
def hexPad : ℕ → ℕ → List Char
  | 0, _ => []
  | k + 1, n => hexPad k (n / 16) ++ [hexChar (n % 16)]

/-- `str` of a UUID. -/
def toStr (n : ℕ) : String :=
  let h := hexPad 32 n
  String.ofList (h.take 8 ++ '-' :: (h.drop 8).take 4 ++ '-' :: (h.drop 12).take 4 ++
    '-' :: (h.drop 16).take 4 ++ '-' :: h.drop 20)

example : (parse "0123456789abcdef0123456789ABCDEF").toOption.map toStr =
    some "01234567-89ab-cdef-0123-456789abcdef" := by decide

end Magicicada.Uuid
