import VoxelServer.Binary

/-!
# Tag trees

The self-describing data that items carry: scalars, strings, arrays, lists and compounds of named
values.

* `Nbt`: the values.
* `Nbt.same`: equality as the game sees it, by value for floats and by name for compounds.
* `Nbt.depth`: how deep a value nests.
-/

namespace VoxelServer

inductive Nbt
  | byte (value : Int8)
  | short (value : Int16)
  | int (value : Int32)
  | long (value : Int64)
  | float (value : Single)
  | double (value : Double)
  | byteArray (values : List Int8)
  | string (value : String)
  | list (values : List Nbt)
  | compound (entries : List (String × Nbt))
  | intArray (values : List Int32)
  | longArray (values : List Int64)
  deriving Repr, Inhabited

namespace Nbt

/-- The tag that announces a value. -/
def tag : Nbt → UInt8
  | byte _ => 1
  | short _ => 2
  | int _ => 3
  | long _ => 4
  | float _ => 5
  | double _ => 6
  | byteArray _ => 7
  | string _ => 8
  | list _ => 9
  | compound _ => 10
  | intArray _ => 11
  | longArray _ => 12

/-- The tags that announce values. Zero ends a compound. -/
def isKnownTag (tag : UInt8) : Bool := 1 ≤ tag && tag ≤ 12

mutual

/-- Equality of values. The order of a compound's entries does not matter, and floats compare as
numbers do. -/
def same : Nbt → Nbt → Bool
  | byte a, byte b => a == b
  | short a, short b => a == b
  | int a, int b => a == b
  | long a, long b => a == b
  | float a, float b => a.eqv b
  | double a, double b => a.eqv b
  | byteArray a, byteArray b => a == b
  | string a, string b => a == b
  | list a, list b => sameList a b
  | compound a, compound b => a.length == b.length && sameEntries a b
  | intArray a, intArray b => a == b
  | longArray a, longArray b => a == b
  | _, _ => false

def sameList : List Nbt → List Nbt → Bool
  | [], [] => true
  | a :: as, b :: bs => same a b && sameList as bs
  | _, _ => false

/-- Whether every entry of the first compound has its like in the second. -/
def sameEntries : List (String × Nbt) → List (String × Nbt) → Bool
  | [], _ => true
  | (name, a) :: as, bs =>
    (match bs.lookup name with
      | some b => same a b
      | none => false) && sameEntries as bs

end

mutual

/-- A scalar or an array has depth 0, a list or compound is one deeper than its deepest member,
and at least 1. -/
def depth : Nbt → Nat
  | list values => listDepth values + 1
  | compound entries => entriesDepth entries + 1
  | _ => 0

def listDepth : List Nbt → Nat
  | [] => 0
  | a :: as => max (depth a) (listDepth as)

def entriesDepth : List (String × Nbt) → Nat
  | [] => 0
  | (_, a) :: as => max (depth a) (entriesDepth as)

end

end Nbt

end VoxelServer
