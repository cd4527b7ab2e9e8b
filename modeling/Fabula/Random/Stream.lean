namespace Fabula.Random

/-!
# A stream of random words

The words of a seed come from a block cipher in counter mode: a key of eight
words, derived from the seed, and a block number are mixed in six double rounds
and added to what they were before.  The words of the blocks in order are the
stream.
-/

/-- The sixteen words of a block. -/
abbrev Block := Vector UInt32 16

def rotateLeft (word : UInt32) (count : UInt32) : UInt32 :=
  (word <<< count) ||| (word >>> (32 - count))

/-- Mix four words of a block. -/
def quarterRound (block : Block) (a b c d : Fin 16) : Block :=
  let a₁ := block[a] + block[b]
  let d₁ := rotateLeft (block[d] ^^^ a₁) 16
  let c₁ := block[c] + d₁
  let b₁ := rotateLeft (block[b] ^^^ c₁) 12
  let a₂ := a₁ + b₁
  let d₂ := rotateLeft (d₁ ^^^ a₂) 8
  let c₂ := c₁ + d₂
  let b₂ := rotateLeft (b₁ ^^^ c₂) 7
  (((block.set a a₂).set b b₂).set c c₂).set d d₂

/-- Mix the four columns, then the four diagonals. -/
def doubleRound (block : Block) : Block :=
  let block := quarterRound block 0 4 8 12
  let block := quarterRound block 1 5 9 13
  let block := quarterRound block 2 6 10 14
  let block := quarterRound block 3 7 11 15
  let block := quarterRound block 0 5 10 15
  let block := quarterRound block 1 6 11 12
  let block := quarterRound block 2 7 8 13
  quarterRound block 3 4 9 14

/-- Mix a block a number of times. -/
def mix : Nat → Block → Block
  | 0, block => block
  | rounds + 1, block => mix rounds (doubleRound block)

/-- A key of eight words. -/
abbrev Key := Vector UInt32 8

/-- The words of the block with the given number. -/
def block (key : Key) (number : UInt64) : Block :=
  let start : Block :=
    #v[0x61707865, 0x3320646e, 0x79622d32, 0x6b206574,
      key[0], key[1], key[2], key[3], key[4], key[5], key[6], key[7],
      number.toUInt32, (number >>> 32).toUInt32, 0, 0]
  Vector.zipWith (· + ·) (mix 6 start) start

/-- One step of the generator that spreads a seed over a key. -/
def spread (seed : UInt64) : UInt64 × UInt32 :=
  let next := seed * 6364136223846793005 + 11634580027462260723
  let word := (((next >>> 18) ^^^ next) >>> 27).toUInt32
  let turn := (next >>> 59).toUInt32
  (next, (word >>> turn) ||| (word <<< ((32 - turn) % 32)))

/-- The first words that a seed spreads to. -/
def spreadWords : Nat → UInt64 → List UInt32
  | 0, _ => []
  | count + 1, seed =>
      let step := spread seed
      step.2 :: spreadWords count step.1

def keyOf (seed : UInt64) : Key :=
  match spreadWords 8 seed with
  | [a, b, c, d, e, f, g, h] => #v[a, b, c, d, e, f, g, h]
  | _ => #v[0, 0, 0, 0, 0, 0, 0, 0]

/-- The words that are left of a stream. -/
structure Stream where
  key : Key
  /-- The number of the next block. -/
  next : UInt64
  /-- The words left of the block before it. -/
  pending : List UInt32

def Stream.ofSeed (seed : UInt64) : Stream :=
  ⟨keyOf seed, 0, []⟩

/-- The next word of a stream. -/
def Stream.word (stream : Stream) : UInt32 × Stream :=
  match stream.pending with
  | word :: rest => (word, { stream with pending := rest })
  | [] =>
      let words := block stream.key stream.next
      (words[0], { stream with next := stream.next + 1, pending := words.toList.drop 1 })

/-- The next two words of a stream as one, the low half first. -/
def Stream.doubleWord (stream : Stream) : UInt64 × Stream :=
  let low := stream.word
  let high := low.2.word
  (low.1.toUInt64 ||| (high.1.toUInt64 <<< 32), high.2)

end Fabula.Random
