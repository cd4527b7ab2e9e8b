import Fabula.LittleEndian

namespace Fabula

/-!
# Message digests

The digest of a sequence of octets has sixteen octets.  The octets are padded to
whole blocks of sixty-four, and each block is mixed into four words in sixty-four
steps.
-/

namespace Digest

def constants : List UInt32 :=
  [
    0xd76aa478, 0xe8c7b756, 0x242070db, 0xc1bdceee, 0xf57c0faf, 0x4787c62a,
    0xa8304613, 0xfd469501, 0x698098d8, 0x8b44f7af, 0xffff5bb1, 0x895cd7be,
    0x6b901122, 0xfd987193, 0xa679438e, 0x49b40821, 0xf61e2562, 0xc040b340,
    0x265e5a51, 0xe9b6c7aa, 0xd62f105d, 0x02441453, 0xd8a1e681, 0xe7d3fbc8,
    0x21e1cde6, 0xc33707d6, 0xf4d50d87, 0x455a14ed, 0xa9e3e905, 0xfcefa3f8,
    0x676f02d9, 0x8d2a4c8a, 0xfffa3942, 0x8771f681, 0x6d9d6122, 0xfde5380c,
    0xa4beea44, 0x4bdecfa9, 0xf6bb4b60, 0xbebfbc70, 0x289b7ec6, 0xeaa127fa,
    0xd4ef3085, 0x04881d05, 0xd9d4d039, 0xe6db99e5, 0x1fa27cf8, 0xc4ac5665,
    0xf4292244, 0x432aff97, 0xab9423a7, 0xfc93a039, 0x655b59c3, 0x8f0ccc92,
    0xffeff47d, 0x85845dd1, 0x6fa87e4f, 0xfe2ce6e0, 0xa3014314, 0x4e0811a1,
    0xf7537e82, 0xbd3af235, 0x2ad7d2bb, 0xeb86d391]

/-- The rotations of the four steps of each round. -/
def rotations : List (List UInt32) :=
  [[7, 12, 17, 22], [5, 9, 14, 20], [4, 11, 16, 23], [6, 10, 15, 21]]

/-- The four words that blocks are mixed into. -/
structure Words where
  a : UInt32
  b : UInt32
  c : UInt32
  d : UInt32
  deriving Repr, DecidableEq

/-- The words before the first block. -/
def Words.start : Words :=
  ⟨0x67452301, 0xefcdab89, 0x98badcfe, 0x10325476⟩

/-- The mixing function of a round and the word of the block that a step reads. -/
def selection (step : Nat) (w : Words) : UInt32 × Nat :=
  match step / 16 with
  | 0 => ((w.b &&& w.c) ||| (~~~w.b &&& w.d), step)
  | 1 => ((w.d &&& w.b) ||| (~~~w.d &&& w.c), (5 * step + 1) % 16)
  | 2 => (w.b ^^^ w.c ^^^ w.d, (3 * step + 5) % 16)
  | _ => (w.c ^^^ (w.b ||| ~~~w.d), (7 * step) % 16)

def rotation (step : Nat) : UInt32 :=
  (rotations.getD (step / 16) []).getD (step % 4) 0

def mixStep (block : List UInt32) (w : Words) (entry : UInt32 × Nat) : Words :=
  let chosen := selection entry.2 w
  let sum := w.a + chosen.1 + entry.1 + block.getD chosen.2 0
  let turn := rotation entry.2
  ⟨w.d, w.b + ((sum <<< turn) ||| (sum >>> (32 - turn))), w.b, w.c⟩

/-- Mix one block into the words. -/
def mixBlock (w : Words) (block : List UInt32) : Words :=
  let mixed := constants.zipIdx.foldl (mixStep block) w
  ⟨w.a + mixed.a, w.b + mixed.b, w.c + mixed.c, w.d + mixed.d⟩

/-- Group octets into words, the lowest octet first. -/
def wordsOf : List UInt8 → List UInt32
  | a :: b :: c :: d :: rest =>
      UInt32.ofNat (LittleEndian.value [a, b, c, d]) :: wordsOf rest
  | _ => []

/-- The octets of a message filled up to whole blocks, with its length in bits at the end. -/
def pad (message : List UInt8) : List UInt8 :=
  let length := message.length
  let bits := UInt64.ofNat (8 * length)
  message ++ (0x80 : UInt8) :: List.replicate ((119 - length % 64) % 64) 0 ++
    LittleEndian.octets 8 bits.toNat

/-- Mix the blocks of a message in order. -/
def mixBlocks : Nat → List UInt32 → Words → Words
  | 0, _, w => w
  | count + 1, words, w => mixBlocks count (words.drop 16) (mixBlock w (words.take 16))

/-- The sixteen octets of a message's digest. -/
def compute (message : List UInt8) : List UInt8 :=
  let words := wordsOf (pad message)
  let w := mixBlocks (words.length / 16) words .start
  [w.a, w.b, w.c, w.d].flatMap LittleEndian.word32

end Digest

end Fabula
