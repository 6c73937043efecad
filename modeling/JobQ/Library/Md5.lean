import Mathlib.Data.List.Basic

/-!
# MD5

The digest of RFC 1321 over a list of bytes, and its hexadecimal text.
-/

namespace Md5

abbrev Word := BitVec 32

structure Chain where
  a : Word
  b : Word
  c : Word
  d : Word
deriving DecidableEq

def sines : List Word :=
  [0xd76aa478, 0xe8c7b756, 0x242070db, 0xc1bdceee, 0xf57c0faf, 0x4787c62a, 0xa8304613, 0xfd469501,
    0x698098d8, 0x8b44f7af, 0xffff5bb1, 0x895cd7be, 0x6b901122, 0xfd987193, 0xa679438e, 0x49b40821,
    0xf61e2562, 0xc040b340, 0x265e5a51, 0xe9b6c7aa, 0xd62f105d, 0x02441453, 0xd8a1e681, 0xe7d3fbc8,
    0x21e1cde6, 0xc33707d6, 0xf4d50d87, 0x455a14ed, 0xa9e3e905, 0xfcefa3f8, 0x676f02d9, 0x8d2a4c8a,
    0xfffa3942, 0x8771f681, 0x6d9d6122, 0xfde5380c, 0xa4beea44, 0x4bdecfa9, 0xf6bb4b60, 0xbebfbc70,
    0x289b7ec6, 0xeaa127fa, 0xd4ef3085, 0x04881d05, 0xd9d4d039, 0xe6db99e5, 0x1fa27cf8, 0xc4ac5665,
    0xf4292244, 0x432aff97, 0xab9423a7, 0xfc93a039, 0x655b59c3, 0x8f0ccc92, 0xffeff47d, 0x85845dd1,
    0x6fa87e4f, 0xfe2ce6e0, 0xa3014314, 0x4e0811a1, 0xf7537e82, 0xbd3af235, 0x2ad7d2bb, 0xeb86d391]

def rotation (i : Nat) : Nat :=
  match i / 16, i % 4 with
  | 0, 0 => 7 | 0, 1 => 12 | 0, 2 => 17 | 0, _ => 22
  | 1, 0 => 5 | 1, 1 => 9 | 1, 2 => 14 | 1, _ => 20
  | 2, 0 => 4 | 2, 1 => 11 | 2, 2 => 16 | 2, _ => 23
  | _, 0 => 6 | _, 1 => 10 | _, 2 => 15 | _, _ => 21

def mix (i : Nat) (b c d : Word) : Word × Nat :=
  if i < 16 then ((b &&& c) ||| (~~~b &&& d), i)
  else if i < 32 then ((d &&& b) ||| (~~~d &&& c), (5 * i + 1) % 16)
  else if i < 48 then (b ^^^ c ^^^ d, (3 * i + 5) % 16)
  else (c ^^^ (b ||| ~~~d), (7 * i) % 16)

def operation (block : List Word) (s : Chain) (i : Nat) (sine : Word) : Chain :=
  let (f, g) := mix i s.b s.c s.d
  let sum := s.a + f + sine + block.getD g 0
  ⟨s.d, s.b + sum.rotateLeft (rotation i), s.b, s.c⟩

def operations (block : List Word) : Nat → List Word → Chain → Chain
  | _, [], s => s
  | i, sine :: rest, s => operations block (i + 1) rest (operation block s i sine)

def compress (s : Chain) (block : List Word) : Chain :=
  let t := operations block 0 sines s
  ⟨s.a + t.a, s.b + t.b, s.c + t.c, s.d + t.d⟩

def littleEndian : Nat → Nat → List UInt8
  | 0, _ => []
  | n + 1, value => UInt8.ofNat (value % 256) :: littleEndian n (value / 256)

def pad (message : List UInt8) : List UInt8 :=
  message ++ 0x80 :: List.replicate ((119 - message.length % 64) % 64) 0 ++
    littleEndian 8 (8 * message.length)

def words : List UInt8 → List Word
  | a :: b :: c :: d :: rest =>
    BitVec.ofNat 32 (a.toNat + 256 * b.toNat + 65536 * c.toNat + 16777216 * d.toNat) :: words rest
  | _ => []

def blocks : Nat → List Word → List (List Word)
  | 0, _ => []
  | n + 1, ws => ws.take 16 :: blocks n (ws.drop 16)

def initial : Chain := ⟨0x67452301, 0xefcdab89, 0x98badcfe, 0x10325476⟩

def digest (message : List UInt8) : List UInt8 :=
  let padded := pad message
  let s := (blocks (padded.length / 64) (words padded)).foldl compress initial
  [s.a, s.b, s.c, s.d].flatMap fun w => littleEndian 4 w.toNat

def hexByte (b : UInt8) : List Char :=
  [Nat.digitChar (b.toNat / 16), Nat.digitChar (b.toNat % 16)]

def hexdigest (message : List UInt8) : String :=
  String.ofList ((digest message).flatMap hexByte)

@[simp]
theorem length_littleEndian (n value : Nat) : (littleEndian n value).length = n := by
  induction n generalizing value with
  | zero => rfl
  | succ n ih => simp [littleEndian, ih]

theorem length_digest (message : List UInt8) : (digest message).length = 16 := by
  simp [digest]

theorem hexdigest_ne_empty (message : List UInt8) : hexdigest message ≠ "" := by
  intro empty
  have chars : (digest message).flatMap hexByte = [] := by
    simpa [hexdigest] using congrArg String.toList empty
  have bytes := length_digest message
  cases equal : digest message with
  | nil => simp [equal] at bytes
  | cons b rest => simp [equal, hexByte] at chars

example : digest [0x61, 0x62, 0x63] = [0x90, 0x01, 0x50, 0x98, 0x3c, 0xd2, 0x4f, 0xb0, 0xd6, 0x96,
    0x3f, 0x7d, 0x28, 0xe1, 0x7f, 0x72] := by decide +kernel

end Md5
