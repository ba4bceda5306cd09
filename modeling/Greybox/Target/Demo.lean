import Greybox.Target.Basic

namespace Greybox.Demo

def magic : List UInt8 := [0x46, 0x55, 0x5a, 0x5a]

def builtinSeed : Array UInt8 := #[0x46, 0x55, 0x5a, 0x5a, 4, 0x61, 0x62, 0x63, 0x64]

def body (checksum : UInt8) : (left : Nat) → Target
  | 0 => .hit (320 + (checksum % 32).toNat) (.finish true)
  | left + 1 => .pull fun
    | .byte b => .hit (64 + b.toNat) (body (checksum ^^^ b) left)
    | _ => .hit 25 (.finish false)

def payload : Target := .pull fun
  | .byte length =>
    if length = 0xff then .crash (some "length byte 0xFF is reserved")
    else .hit (32 + (length % 16).toNat) (body 0 length.toNat)
  | _ => .hit 24 (.finish false)

def header (depth : Nat) : List UInt8 → Target
  | [] => payload
  | expected :: rest => .pull fun
    | .byte b =>
      if b = expected then .hit depth (header (depth + 1) rest)
      else .hit (8 + depth) (.finish false)
    | _ => .hit (16 + depth) (.finish false)

def target : Target := header 0 magic

end Greybox.Demo
