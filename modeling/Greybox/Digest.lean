namespace Greybox

namespace Digest

structure Words where
  a : UInt32
  b : UInt32
  c : UInt32
  d : UInt32
  deriving DecidableEq

def Words.initial : Words := ⟨0x67452301, 0xefcdab89, 0x98badcfe, 0x10325476⟩

def rotations : Array UInt32 :=
  #[7, 12, 17, 22, 5, 9, 14, 20, 4, 11, 16, 23, 6, 10, 15, 21]

/-- The additive constant of each step: the integer part of `2^32 * |sin (i + 1)|`. -/
def constants : Array UInt32 := #[
  0xd76aa478, 0xe8c7b756, 0x242070db, 0xc1bdceee, 0xf57c0faf, 0x4787c62a, 0xa8304613, 0xfd469501,
  0x698098d8, 0x8b44f7af, 0xffff5bb1, 0x895cd7be, 0x6b901122, 0xfd987193, 0xa679438e, 0x49b40821,
  0xf61e2562, 0xc040b340, 0x265e5a51, 0xe9b6c7aa, 0xd62f105d, 0x02441453, 0xd8a1e681, 0xe7d3fbc8,
  0x21e1cde6, 0xc33707d6, 0xf4d50d87, 0x455a14ed, 0xa9e3e905, 0xfcefa3f8, 0x676f02d9, 0x8d2a4c8a,
  0xfffa3942, 0x8771f681, 0x6d9d6122, 0xfde5380c, 0xa4beea44, 0x4bdecfa9, 0xf6bb4b60, 0xbebfbc70,
  0x289b7ec6, 0xeaa127fa, 0xd4ef3085, 0x04881d05, 0xd9d4d039, 0xe6db99e5, 0x1fa27cf8, 0xc4ac5665,
  0xf4292244, 0x432aff97, 0xab9423a7, 0xfc93a039, 0x655b59c3, 0x8f0ccc92, 0xffeff47d, 0x85845dd1,
  0x6fa87e4f, 0xfe2ce6e0, 0xa3014314, 0x4e0811a1, 0xf7537e82, 0xbd3af235, 0x2ad7d2bb, 0xeb86d391]

def rotateLeft (x n : UInt32) : UInt32 := (x <<< n) ||| (x >>> (32 - n))

def mix (step : Nat) (w : Words) : UInt32 × Nat :=
  match step / 16 with
  | 0 => ((w.b &&& w.c) ||| (~~~w.b &&& w.d), step)
  | 1 => ((w.d &&& w.b) ||| (~~~w.d &&& w.c), (5 * step + 1) % 16)
  | 2 => (w.b ^^^ w.c ^^^ w.d, (3 * step + 5) % 16)
  | _ => (w.c ^^^ (w.b ||| ~~~w.d), (7 * step) % 16)

def step (block : Array UInt32) (w : Words) (i : Nat) : Words :=
  let (f, word) := mix i w
  let sum := w.a + f + constants.getD i 0 + block.getD word 0
  ⟨w.d, w.b + rotateLeft sum (rotations.getD (i / 16 * 4 + i % 4) 0), w.b, w.c⟩

def compress (w : Words) (block : Array UInt32) : Words :=
  let z := (List.range 64).foldl (step block) w
  ⟨w.a + z.a, w.b + z.b, w.c + z.c, w.d + z.d⟩

/-- The message with its padding: a one bit, zeroes up to 56 bytes modulo 64, and the length in
bits as eight bytes, lowest first. -/
def padded (bytes : Array UInt8) : Array UInt8 :=
  let bits := bytes.size * 8
  (bytes.push 0x80) ++ Array.replicate ((119 - bytes.size % 64) % 64) (0 : UInt8)
    ++ ((Array.range 8).map fun i => .ofNat (bits >>> (8 * i)))

def wordAt (bytes : Array UInt8) (i : Nat) : UInt32 :=
  let byte (k : Nat) : UInt32 := (bytes.getD (4 * i + k) 0).toUInt32
  byte 0 ||| (byte 1 <<< 8) ||| (byte 2 <<< 16) ||| (byte 3 <<< 24)

def littleEndian (x : UInt32) : Array UInt8 :=
  #[x.toUInt8, (x >>> 8).toUInt8, (x >>> 16).toUInt8, (x >>> 24).toUInt8]

def hexDigit (n : Nat) : Char := Nat.digitChar n

end Digest

open Digest in
def md5 (bytes : Array UInt8) : Array UInt8 :=
  let message := padded bytes
  let w := (List.range (message.size / 64)).foldl
    (fun w b => compress w ((Array.range 16).map fun i => wordAt message (16 * b + i)))
    Words.initial
  littleEndian w.a ++ littleEndian w.b ++ littleEndian w.c ++ littleEndian w.d

def hex (bytes : Array UInt8) : String :=
  bytes.foldl (fun text b =>
    (text.push (Digest.hexDigit (b.toNat / 16))).push (Digest.hexDigit (b.toNat % 16))) ""

end Greybox
