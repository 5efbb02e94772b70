import KeyManagement.Bytes

/-! # Checksums

CRC-32C over the reflected Castagnoli polynomial, one bit at a time: `shift` is linear
over exclusive or, and the checksum folds it over the data. A checksum is optional on the
wire, and zero stands for an absent one.
-/

namespace KeyManagement.Checksum

/-- The polynomial 0x1EDC6F41 with its bits in reverse. -/
def polynomial : BitVec 32 := 0x82F63B78#32

/-- One step of the shift register. -/
def shift (r : BitVec 32) : BitVec 32 :=
  if r.getLsbD 0 then (r >>> 1) ^^^ polynomial else r >>> 1

def shiftByte (r : BitVec 32) : BitVec 32 :=
  shift (shift (shift (shift (shift (shift (shift (shift r)))))))

def feed (r : BitVec 32) (b : UInt8) : BitVec 32 :=
  shiftByte (r ^^^ b.toBitVec.setWidth 32)

def crc32c (data : Bytes) : BitVec 32 := ~~~ data.foldl feed (BitVec.allOnes 32)

/-- Checksums travel as signed 64-bit integers and are never negative. -/
def toWire (crc : BitVec 32) : Int := crc.toNat

/-- The data do not have the supplied checksum. -/
structure Mismatch where
  deriving DecidableEq, Repr

/-- Whether the data were checked: absent and zero checksums are not. -/
def verify (data : Bytes) (supplied : Option Int) : Except Mismatch Bool :=
  match supplied with
  | none => .ok false
  | some crc =>
    if crc = 0 then .ok false
    else if crc = toWire (crc32c data) then .ok true
    else .error {}

end KeyManagement.Checksum
