import KeyManagement.Cipher.Block

/-! # AES-256

The block cipher over a state of four columns of four bytes. A key is expanded into
fifteen round keys, each as large as the state.
-/

namespace KeyManagement.Aes

/-- Multiplication by x modulo x⁸ + x⁴ + x³ + x + 1. -/
def double (a : UInt8) : UInt8 :=
  if a &&& 0x80 = 0 then a <<< 1 else (a <<< 1) ^^^ 0x1b

/-- Multiplication in the field of 256 elements. -/
def mul (a b : UInt8) : UInt8 :=
  ((List.range 8).foldl
    (fun (sum, term) i =>
      (if (b >>> i.toUInt8) &&& 1 = 1 then sum ^^^ term else sum, double term))
    ((0 : UInt8), a)).1

/-- The power a²⁵⁴: the inverse of a nonzero element, and zero for zero. -/
def inverse (a : UInt8) : UInt8 :=
  let square x := mul x x
  let a2 := square a
  let a4 := square a2
  let a8 := square a4
  let a16 := square a8
  let a32 := square a16
  let a64 := square a32
  let a128 := square a64
  mul a2 (mul a4 (mul a8 (mul a16 (mul a32 (mul a64 a128)))))

def rotateLeft (a n : UInt8) : UInt8 := (a <<< n) ||| (a >>> (8 - n))

/-- The substitution of one byte: inversion followed by an affine map. -/
def substitute (a : UInt8) : UInt8 :=
  let b := inverse a
  b ^^^ rotateLeft b 1 ^^^ rotateLeft b 2 ^^^ rotateLeft b 3 ^^^ rotateLeft b 4 ^^^ 0x63

def substitutionTable : Vector UInt8 256 := Vector.ofFn fun i => substitute i.val.toUInt8

def subByte (a : UInt8) : UInt8 := substitutionTable.get ⟨a.toNat, a.toNat_lt⟩

structure Word where
  b₀ : UInt8
  b₁ : UInt8
  b₂ : UInt8
  b₃ : UInt8
  deriving DecidableEq, Repr

namespace Word

def xor (v w : Word) : Word := ⟨v.b₀ ^^^ w.b₀, v.b₁ ^^^ w.b₁, v.b₂ ^^^ w.b₂, v.b₃ ^^^ w.b₃⟩

def sub (w : Word) : Word := ⟨subByte w.b₀, subByte w.b₁, subByte w.b₂, subByte w.b₃⟩

def rotate (w : Word) : Word := ⟨w.b₁, w.b₂, w.b₃, w.b₀⟩

/-- Multiplies a column by the circulant matrix of 2, 3, 1, 1. -/
def mix (w : Word) : Word :=
  let all := w.b₀ ^^^ w.b₁ ^^^ w.b₂ ^^^ w.b₃
  ⟨w.b₀ ^^^ all ^^^ double (w.b₀ ^^^ w.b₁), w.b₁ ^^^ all ^^^ double (w.b₁ ^^^ w.b₂),
    w.b₂ ^^^ all ^^^ double (w.b₂ ^^^ w.b₃), w.b₃ ^^^ all ^^^ double (w.b₃ ^^^ w.b₀)⟩

def toBytes (w : Word) : Bytes := [w.b₀, w.b₁, w.b₂, w.b₃]

end Word

structure State where
  c₀ : Word
  c₁ : Word
  c₂ : Word
  c₃ : Word
  deriving DecidableEq, Repr

namespace State

def ofBlock (b : Block) : State :=
  ⟨⟨b.byte 0, b.byte 1, b.byte 2, b.byte 3⟩, ⟨b.byte 4, b.byte 5, b.byte 6, b.byte 7⟩,
    ⟨b.byte 8, b.byte 9, b.byte 10, b.byte 11⟩, ⟨b.byte 12, b.byte 13, b.byte 14, b.byte 15⟩⟩

def toBlock (s : State) : Block :=
  Block.ofBytes (s.c₀.toBytes ++ s.c₁.toBytes ++ s.c₂.toBytes ++ s.c₃.toBytes)

def xor (s k : State) : State :=
  ⟨s.c₀.xor k.c₀, s.c₁.xor k.c₁, s.c₂.xor k.c₂, s.c₃.xor k.c₃⟩

def sub (s : State) : State := ⟨s.c₀.sub, s.c₁.sub, s.c₂.sub, s.c₃.sub⟩

/-- Rotates row r to the left by r places. -/
def shiftRows (s : State) : State :=
  ⟨⟨s.c₀.b₀, s.c₁.b₁, s.c₂.b₂, s.c₃.b₃⟩, ⟨s.c₁.b₀, s.c₂.b₁, s.c₃.b₂, s.c₀.b₃⟩,
    ⟨s.c₂.b₀, s.c₃.b₁, s.c₀.b₂, s.c₁.b₃⟩, ⟨s.c₃.b₀, s.c₀.b₁, s.c₁.b₂, s.c₂.b₃⟩⟩

def mix (s : State) : State := ⟨s.c₀.mix, s.c₁.mix, s.c₂.mix, s.c₃.mix⟩

/-- Runs exclusive or through the columns, starting with the given word. -/
def chain (s : State) (start : Word) : State :=
  let d₀ := s.c₀.xor start
  let d₁ := s.c₁.xor d₀
  let d₂ := s.c₂.xor d₁
  ⟨d₀, d₁, d₂, s.c₃.xor d₂⟩

end State

/-- A 256-bit key, in two halves. -/
structure Key where
  front : State
  back : State
  deriving DecidableEq, Repr

namespace Key

def size : Nat := 32

def ofBytes (bytes : Bytes) : Key :=
  ⟨.ofBlock (.ofBytes (bytes.take 16)), .ofBlock (.ofBytes (bytes.drop 16))⟩

/-- Two round keys for each constant, and one more at the end. -/
def expand : (constants : List UInt8) → (front back : State) → List State
  | [], front, _ => [front]
  | c :: constants, front, back =>
    let front' := front.chain (back.c₃.rotate.sub.xor ⟨c, 0, 0, 0⟩)
    front :: back :: expand constants front' (back.chain front'.c₃.sub)

def roundKeys (k : Key) : List State := expand [1, 2, 4, 8, 16, 32, 64] k.front k.back

end Key

/-- One round for each key; the last one does not mix. -/
def rounds : List State → State → State
  | [], s => s
  | [k], s => s.sub.shiftRows.xor k
  | k :: ks, s => rounds ks (s.sub.shiftRows.mix.xor k)

def encryptBlock (roundKeys : List State) (b : Block) : Block :=
  match roundKeys with
  | [] => b
  | k :: ks => (rounds ks ((State.ofBlock b).xor k)).toBlock

end KeyManagement.Aes
