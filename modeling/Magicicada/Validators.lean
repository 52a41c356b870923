import Magicicada.Uuid
import Magicicada.Wire

/-!
`validators.py`: the checks of single fields and `validate_message`, which applies them to every
set field of a message whose name has one.
-/

namespace Magicicada.Validators

open Wire

def isValidNode (nodeId : String) : Bool :=
  match Uuid.parse nodeId with
  | .ok n => Uuid.toStr n == nodeId
  | .error _ => false

def isValidCrc32 (_crc32 : ℕ) : Bool := true

def isValidShare (shareId : String) : Bool := shareId == "" || isValidNode shareId

/-- `[0-9a-z]`. -/
def sha1Char (c : Char) : Bool := '0' ≤ c && c ≤ '9' || 'a' ≤ c && c ≤ 'z'

/-- `re.match(r'sha1:[0-9a-z]{40}$', sha1)`. The `$` also matches before a final newline. -/
def isValidSha1 (sha1 : String) : Bool :=
  "sha1:".toList.isPrefixOf sha1.toList &&
    let s := sha1.toList.drop 5
    (s.take 40).all sha1Char && (s.length == 40 || s.length == 41 && s.drop 40 == ['\n'])

/-- `request.UNKNOWN_HASH`. -/
def unknownHash : String := "unknown"

def isValidHash (aHash : String) : Bool :=
  aHash == "" || aHash == unknownHash || isValidSha1 aHash

def onStr (p : String → Bool) : Scalar → Bool
  | .str s => p s
  | _ => false

def onVarint (p : ℕ → Bool) : Scalar → Bool
  | .varint n => p n
  | _ => false

/-- `getattr(validators, "is_valid_" + name, None)`. Fields of these names are strings, and
`crc32` is a number. -/
def validator (name : String) : Option (Scalar → Bool) :=
  match name with
  | "node" | "parent_node" | "new_parent_node" | "subtree" => some (onStr isValidNode)
  | "crc32" => some (onVarint isValidCrc32)
  | "share" | "share_id" => some (onStr isValidShare)
  | "sha1" => some (onStr isValidSha1)
  | "hash" => some (onStr isValidHash)
  | _ => none

/-- What an entry of the list of errors tells: the name and the value of a field. -/
structure Invalid where
  name : String
  value : Scalar
  deriving DecidableEq

mutual

/-- One round of the loop of `validate_message`. -/
def validateField : Tree → List Invalid
  | .scalar name _ v =>
    match validator name with
    | some valid => if valid v then [] else [⟨name, v⟩]
    | none => []
  | .message _ _ fields => validateMessage fields
  | .repeated _ _ elems => validateMessage elems

/-- `validate_message`, of what `ListFields` gives. -/
def validateMessage : List Tree → List Invalid
  | [] => []
  | t :: ts => validateField t ++ validateMessage ts

end

/-! ### The text of an entry -/

/-- The last `k` hexadecimal digits of a number. -/
def hex (k n : ℕ) : List Char := Uuid.hexPad k n

/-- The quote `repr` puts around a text. -/
def quoteOf (s : List Char) : Char := if '\'' ∈ s ∧ '"' ∉ s then '"' else '\''

/-- How `repr` of a string shows a character. `printable` is `str.isprintable` past ASCII. -/
def reprChar (printable : Char → Bool) (quote c : Char) : List Char :=
  if c = quote ∨ c = '\\' then ['\\', c]
  else if c = '\t' then ['\\', 't']
  else if c = '\n' then ['\\', 'n']
  else if c = '\r' then ['\\', 'r']
  else if c.toNat < 0x20 ∨ c.toNat = 0x7f then '\\' :: 'x' :: hex 2 c.toNat
  else if c.toNat < 0x80 ∨ printable c then [c]
  else if c.toNat < 0x100 then '\\' :: 'x' :: hex 2 c.toNat
  else if c.toNat < 0x10000 then '\\' :: 'u' :: hex 4 c.toNat
  else '\\' :: 'U' :: hex 8 c.toNat

/-- `repr` of a field. -/
def repr (printable : Char → Bool) : Scalar → List Char
  | .varint n => (toString n).toList
  | .str s =>
    let q := quoteOf s.toList
    q :: s.toList.flatMap (reprChar printable q) ++ [q]
  | .bytes b =>
    let s := b.map fun x => Char.ofNat x.toNat
    let q := quoteOf s
    'b' :: q :: s.flatMap (reprChar (fun _ => false) q) ++ [q]

/-- `"Invalid %s: %r" % (name, value)`. -/
def Invalid.text (printable : Char → Bool) (e : Invalid) : String :=
  "Invalid " ++ e.name ++ ": " ++ String.ofList (repr printable e.value)

end Magicicada.Validators
