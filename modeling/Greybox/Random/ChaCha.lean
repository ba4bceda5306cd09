import Greybox.Random

namespace Greybox

namespace ChaCha

structure Block where
  x0 : UInt32
  x1 : UInt32
  x2 : UInt32
  x3 : UInt32
  x4 : UInt32
  x5 : UInt32
  x6 : UInt32
  x7 : UInt32
  x8 : UInt32
  x9 : UInt32
  x10 : UInt32
  x11 : UInt32
  x12 : UInt32
  x13 : UInt32
  x14 : UInt32
  x15 : UInt32
  deriving DecidableEq

structure Key where
  k0 : UInt32
  k1 : UInt32
  k2 : UInt32
  k3 : UInt32
  k4 : UInt32
  k5 : UInt32
  k6 : UInt32
  k7 : UInt32
  deriving DecidableEq

def rotateLeft (x n : UInt32) : UInt32 := (x <<< n) ||| (x >>> (32 - n))

def quarterRound (a b c d : UInt32) : UInt32 × UInt32 × UInt32 × UInt32 :=
  let a := a + b
  let d := rotateLeft (d ^^^ a) 16
  let c := c + d
  let b := rotateLeft (b ^^^ c) 12
  let a := a + b
  let d := rotateLeft (d ^^^ a) 8
  let c := c + d
  let b := rotateLeft (b ^^^ c) 7
  (a, b, c, d)

def doubleRound (s : Block) : Block :=
  let (x0, x4, x8, x12) := quarterRound s.x0 s.x4 s.x8 s.x12
  let (x1, x5, x9, x13) := quarterRound s.x1 s.x5 s.x9 s.x13
  let (x2, x6, x10, x14) := quarterRound s.x2 s.x6 s.x10 s.x14
  let (x3, x7, x11, x15) := quarterRound s.x3 s.x7 s.x11 s.x15
  let (x0, x5, x10, x15) := quarterRound x0 x5 x10 x15
  let (x1, x6, x11, x12) := quarterRound x1 x6 x11 x12
  let (x2, x7, x8, x13) := quarterRound x2 x7 x8 x13
  let (x3, x4, x9, x14) := quarterRound x3 x4 x9 x14
  ⟨x0, x1, x2, x3, x4, x5, x6, x7, x8, x9, x10, x11, x12, x13, x14, x15⟩

def initialBlock (key : Key) (counter : UInt64) : Block :=
  ⟨0x61707865, 0x3320646e, 0x79622d32, 0x6b206574,
    key.k0, key.k1, key.k2, key.k3, key.k4, key.k5, key.k6, key.k7,
    counter.toUInt32, (counter >>> 32).toUInt32, 0, 0⟩

def keystream (key : Key) (counter : UInt64) : List UInt32 :=
  let s := initialBlock key counter
  let z := doubleRound (doubleRound (doubleRound (doubleRound s)))
  [s.x0 + z.x0, s.x1 + z.x1, s.x2 + z.x2, s.x3 + z.x3,
    s.x4 + z.x4, s.x5 + z.x5, s.x6 + z.x6, s.x7 + z.x7,
    s.x8 + z.x8, s.x9 + z.x9, s.x10 + z.x10, s.x11 + z.x11,
    s.x12 + z.x12, s.x13 + z.x13, s.x14 + z.x14, s.x15 + z.x15]

end ChaCha

/-- The keystream of ChaCha with eight rounds, a block counter that starts at zero, and a zero
nonce. The words of the blocks are handed out in order and none is skipped. -/
structure ChaCha where
  key : ChaCha.Key
  counter : UInt64
  ready : List UInt32
  deriving DecidableEq

namespace ChaCha

/-- One step of the linear congruential generator that expands a seed into a key, and the permuted
output word of the new state. -/
def expand (s : UInt64) : UInt32 × UInt64 :=
  let s := s * 6364136223846793005 + 11634580027462260723
  let x := (((s >>> 18) ^^^ s) >>> 27).toUInt32
  let n := (s >>> 59).toUInt32
  ((x >>> n) ||| (x <<< ((32 - n) % 32)), s)

def ofSeed (seed : UInt64) : ChaCha :=
  let (k0, s) := expand seed
  let (k1, s) := expand s
  let (k2, s) := expand s
  let (k3, s) := expand s
  let (k4, s) := expand s
  let (k5, s) := expand s
  let (k6, s) := expand s
  let (k7, _) := expand s
  ⟨⟨k0, k1, k2, k3, k4, k5, k6, k7⟩, 0, []⟩

instance : Inhabited ChaCha := ⟨ofSeed 0⟩

def next (g : ChaCha) : UInt32 × ChaCha :=
  match g.ready with
  | w :: ready => (w, { g with ready })
  | [] =>
    let s := keystream g.key g.counter
    (s.headD 0, { g with counter := g.counter + 1, ready := s.tail })

instance : WordSource ChaCha := ⟨next⟩

end ChaCha

end Greybox
