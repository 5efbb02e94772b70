import KeyManagement.Cipher.Block

/-! # Galois counter mode

Authenticated encryption over an arbitrary block function: counter mode hides the
plaintext, and a polynomial hash over the field of 2¹²⁸ elements authenticates the
ciphertext and the associated data.
-/

namespace KeyManagement.Gcm

variable (encrypt : Block → Block)

/-- The field polynomial x¹²⁸ + x⁷ + x² + x + 1, with the low coefficients first. -/
def reduction : Block := 0xe1#128 <<< 120

/-- Multiplication by x, whose coefficient is the second bit from the left. -/
def double (v : Block) : Block :=
  if v.getLsbD 0 then (v >>> 1) ^^^ reduction else v >>> 1

def mul (x h : Block) : Block :=
  ((List.range 128).foldl
    (fun (sum, term) i => (if x.getMsbD i then sum ^^^ term else sum, double term))
    (0#128, h)).1

/-- The polynomial with the given coefficients, evaluated at `h`. -/
def hash (h : Block) (blocks : List Block) : Block :=
  blocks.foldl (fun y x => mul (y ^^^ x) h) 0#128

/-- Counts up in the last 32 bits. -/
def increment (counter : Block) : Block :=
  counter.extractLsb' 32 96 ++ (counter.extractLsb' 0 32 + 1#32)

/-- The encryptions of consecutive counters. -/
def keystream (counter : Block) : (blocks : Nat) → Bytes
  | 0 => []
  | n + 1 => (encrypt counter).toBytes ++ keystream (increment counter) n

/-- Adds the keystream to the data, and so undoes itself. -/
def applyKeystream (counter : Block) (data : Bytes) : Bytes :=
  List.zipWith (· ^^^ ·) data
    (keystream encrypt counter ((data.length + Block.size - 1) / Block.size))

def nonceSize : Nat := 12

def tagSize : Nat := 16

/-- The counter block of a nonce of twelve bytes. -/
def initialCounter (nonce : Bytes) : Block := Block.ofBytes (nonce ++ [0, 0, 0, 1])

def lengths (aad ciphertext : Bytes) : Block :=
  BitVec.ofNat 64 (8 * aad.length) ++ BitVec.ofNat 64 (8 * ciphertext.length)

def tag (nonce aad ciphertext : Bytes) : Bytes :=
  let digest := hash (encrypt 0#128)
    (Block.split aad ++ Block.split ciphertext ++ [lengths aad ciphertext])
  (encrypt (initialCounter nonce) ^^^ digest).toBytes

/-- The most bytes that one nonce may protect. -/
def maxSize : Nat := 0x1000000000

/-- The ciphertext followed by its tag, or nothing if the data are too large. -/
def seal? (nonce aad plaintext : Bytes) : Option Bytes :=
  if maxSize < plaintext.length || maxSize < aad.length then none
  else
    let ciphertext := applyKeystream encrypt (increment (initialCounter nonce)) plaintext
    some (ciphertext ++ tag encrypt nonce aad ciphertext)

/-- The plaintext, if the tag at the end of the sealed data is right. -/
def unseal? (nonce aad sealed : Bytes) : Option Bytes :=
  let size := sealed.length - tagSize
  let ciphertext := sealed.take size
  if sealed.length < tagSize || maxSize + tagSize < size || maxSize < aad.length then none
  else if sealed.drop size = tag encrypt nonce aad ciphertext then
    some (applyKeystream encrypt (increment (initialCounter nonce)) ciphertext)
  else none

end KeyManagement.Gcm
