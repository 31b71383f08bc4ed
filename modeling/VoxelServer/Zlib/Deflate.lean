import VoxelServer.Zlib.Adler

/-!
# Compression

Any stream that decompresses to the content will do, and the simplest one stores it: blocks of
plain bytes behind their length, then the checksum.

* `Zlib.deflate`: the stream of a content.
-/

namespace VoxelServer.Zlib

/-- The most bytes a stored block holds. -/
def maxStored : Nat := 65535

/-- One stored block. -/
def storedBlock (isLast : Bool) (content : Bytes) : Bytes :=
  (if isLast then 1 else 0) :: Bytes.ofNatLE 2 content.length ++
    Bytes.ofNatLE 2 (65535 - content.length) ++ content

/-- Stored blocks of full size, then one with the remainder. -/
def storedBlocks (content : Bytes) : Bytes :=
  let front := content.take maxStored
  let rest := content.drop maxStored
  if _h : rest = [] then storedBlock true front
  else storedBlock false front ++ storedBlocks rest
termination_by content.length
decreasing_by
  have : 0 < (content.drop maxStored).length := List.length_pos_iff.mpr _h
  simp only [List.length_drop] at this ⊢
  have : 0 < maxStored := by decide
  omega

def deflate (content : Bytes) : Bytes :=
  0x78 :: 0x01 :: storedBlocks content ++ Bytes.ofNatBE 4 (Adler.checksum content)

end VoxelServer.Zlib
