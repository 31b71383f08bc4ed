import VoxelServer.Zlib.BitStream

/-!
# Prefix codes

A code gives each symbol a word of bits, none of which begins another. The lengths of the words
determine the code: shorter words come first, words of one length are counted up in the order of
their symbols.

* `PrefixCode`: a code as the binary tree of its words.
* `PrefixCode.ofLengths?`: the code with given lengths, if they fit.
* `PrefixCode.read`: takes the word of one symbol off a stream.
-/

namespace VoxelServer

inductive PrefixCode
  | unused
  | symbol (value : Nat)
  | branch (zero one : PrefixCode)

namespace PrefixCode

/-- The longest word there may be. -/
def maxLength : Nat := 15

/-- The code with one more word: the low `length` bits of `word`, most significant first. -/
def insert (value : Nat) : (length word : Nat) → PrefixCode → PrefixCode
  | 0, _, _ => symbol value
  | length + 1, word, code =>
    let (zero, one) := match code with
      | branch zero one => (zero, one)
      | _ => (unused, unused)
    if (word >>> length) % 2 == 0 then branch (insert value length word zero) one
    else branch zero (insert value length word one)

/-- Adds words of one length from `word` on, one for each symbol of that length. -/
def insertLength (length : Nat) (lengths : List (Nat × Nat)) (state : Nat × PrefixCode) :
    Nat × PrefixCode :=
  lengths.foldl
    (fun (word, code) (l, value) =>
      if l == length then (word + 1, insert value length word code) else (word, code))
    state

/-- The share of all words of the greatest length that words of these lengths take up. -/
def taken (lengths : List Nat) : Nat :=
  lengths.foldl (fun total l => if l == 0 then total else total + (1 <<< (maxLength - l))) 0

def build (lengths : List Nat) : PrefixCode :=
  let indexed := lengths.zipIdx
  ((List.range' 1 maxLength).foldl
    (fun (word, code) length => insertLength length indexed (2 * word, code)) (0, unused)).2

/-- The code whose words have these lengths, zero for symbols without a word. The words must use
up all bit patterns, except that a single word or none may leave some over where `sparse`
allows it. -/
def ofLengths? (sparse : Bool) (lengths : List Nat) : Option PrefixCode :=
  let used := (lengths.filter (· != 0)).length
  if taken lengths == 1 <<< maxLength || sparse && used ≤ 1 then some (build lengths) else none

/-- Follows the bits of the stream down to a symbol. -/
def read : PrefixCode → BitReader Nat
  | unused => failure
  | symbol value => return value
  | branch zero one => do
    if (← BitStream.bit) == 0 then zero.read else one.read

end PrefixCode

end VoxelServer
