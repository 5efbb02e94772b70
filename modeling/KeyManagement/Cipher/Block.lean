import KeyManagement.Bytes

/-! # Cipher blocks

Blocks of 128 bits, whose first byte holds the most significant bits.
-/

namespace KeyManagement

abbrev Block := BitVec 128

namespace Block

def size : Nat := 16

/-- The block with the given bytes, filled up with zeros. -/
def ofBytes (bytes : Bytes) : Block :=
  BitVec.ofNat 128 (Bytes.toNat (bytes ++ List.replicate (size - bytes.length) 0))

def toBytes (b : Block) : Bytes := Bytes.ofNat size b.toNat

def byte (b : Block) (i : Nat) : UInt8 := ⟨b.extractLsb' (120 - 8 * i) 8⟩

/-- The data cut into blocks, the last of them filled up with zeros. -/
def split : Bytes → List Block
  | [] => []
  | b :: rest => ofBytes (b :: rest.take 15) :: split (rest.drop 15)
  termination_by bytes => bytes.length
  decreasing_by simp only [List.length_drop, List.length_cons]; omega

end Block

end KeyManagement
