import KeyManagement.Engine.AesGcm
import KeyManagement.World

/-! # Random bytes

A source of random bytes is a key that nobody knows and a counter: the bytes are the
encrypted counter, block after block.
-/

namespace KeyManagement

structure Generator where
  key : Aes.Key
  counter : Nat := 0
  deriving DecidableEq, Repr

namespace Generator

def ofSeed (seed : Bytes) : Generator := { key := .ofBytes seed }

def block (g : Generator) (i : Nat) : Block :=
  Aes.encryptBlock g.key.roundKeys (BitVec.ofNat 128 (g.counter + i))

def draw (size : Nat) (g : Generator) : Bytes × Generator :=
  let blocks := (size + Block.size - 1) / Block.size
  (((List.range blocks).flatMap fun i => (g.block i).toBytes).take size,
    { g with counter := g.counter + blocks })

theorem length_blocks (g : Generator) (count : Nat) :
    ((List.range count).flatMap fun i => (g.block i).toBytes).length = count * Block.size := by
  simp only [List.length_flatMap, Block.toBytes, Bytes.length_ofNat, List.map_const',
    List.length_range, List.sum_replicate_nat]

@[simp]
theorem length_draw (size : Nat) (g : Generator) : (g.draw size).1.length = size := by
  simp only [draw, List.length_take, length_blocks, Block.size]
  omega

end Generator

/-- The AES-256-GCM engine with nonces and keys from a generator. -/
def Engine.random : Engine (World Generator) :=
  AesGcm.engine World.check fun size w =>
    let (bytes, entropy) := w.entropy.draw size
    (bytes, { w with entropy })

end KeyManagement
