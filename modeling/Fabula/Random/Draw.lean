import Fabula.Random.Stream

namespace Fabula.Random

/-!
# Fair draws

A word is brought into a range by multiplying it with the size of the range and
keeping the high half of the product.  Words whose low half lies in the short
last zone are passed over, so every result is equally likely.  A draw gives up
after many rejected words, which does not happen in practice; its result is in
the range even then.
-/

/-- The number of words that a draw looks at. -/
def attempts : Nat := 256

/--
The greatest low half that is accepted: as many multiples of the size as fit
below two to the width, less one.
-/
def zone (width size : Nat) : Nat :=
  size * Nat.pow 2 (width - 1 - size.log2) - 1

/-- Draw below `size` from words of the given width. -/
def drawBelow
    (width size : Nat)
    (next : Stream → Nat × Stream) :
    Nat → Stream → Nat × Stream
  | 0, stream => (0, stream)
  | fuel + 1, stream =>
      let word := next stream
      let product := word.1 * size
      if product % Nat.pow 2 width ≤ zone width size then
        (product / Nat.pow 2 width, word.2)
      else
        drawBelow width size next fuel word.2

/-- A position below `size`, drawn with double words. -/
def index (size : Nat) (stream : Stream) : Nat × Stream :=
  drawBelow 64 size (fun s => (s.doubleWord.1.toNat, s.doubleWord.2)) attempts stream

/-- An integer from the first to the second bound, both included. -/
def integer (low high : Int32) (stream : Stream) : Int32 :=
  let size := (high.toUInt32 - low.toUInt32 + 1).toNat
  if size = 0 then
    stream.word.1.toInt32
  else
    let drawn := drawBelow 32 size (fun s => (s.word.1.toNat, s.word.2)) attempts stream
    low + Int32.ofNat drawn.1

/-- A draw from words of the given width is below the size. -/
theorem drawBelow_lt
    {width size : Nat}
    {next : Stream → Nat × Stream}
    (wordBound : ∀ stream, (next stream).1 < Nat.pow 2 width)
    (positive : 0 < size)
    (fuel : Nat)
    (stream : Stream) :
    (drawBelow width size next fuel stream).1 < size := by
  induction fuel generalizing stream with
  | zero =>
      simpa [drawBelow] using positive
  | succ fuel inductionHypothesis =>
      simp only [drawBelow]
      split
      · have bound := wordBound stream
        exact Nat.div_lt_of_lt_mul ((Nat.mul_lt_mul_right positive).mpr bound)
      · exact inductionHypothesis _

/-- A drawn position is below the size. -/
theorem index_lt
    {size : Nat}
    (positive : 0 < size)
    (stream : Stream) :
    (index size stream).1 < size :=
  drawBelow_lt (fun s => s.doubleWord.1.toNat_lt) positive attempts stream

/-- The state of a story's random numbers: a seed and the number of draws made. -/
structure State where
  seed : UInt64
  draws : UInt64
  deriving Repr, DecidableEq

/-- The state of a seed before any draw. -/
def State.ofSeed (seed : UInt64) : State :=
  ⟨seed, 0⟩

/--
An integer between two bounds given in either order.  Every draw starts a fresh
stream from the seed and the number of draws before it.
-/
def State.range (state : State) (first second : Int32) : Int32 × State :=
  let low := if first ≤ second then first else second
  let high := if first ≤ second then second else first
  let stream := Stream.ofSeed (state.seed + state.draws)
  (integer low high stream, { state with draws := state.draws + 1 })

/--
Take the given number of elements out at positions that are drawn below the number of those
that are left, and keep the last one.
-/
def pick {τ : Type} (draw : Nat → τ → Nat × τ) : Nat → Nat → List Nat → τ → Nat
  | 0, chosen, _, _ => chosen
  | count + 1, chosen, unpicked, source =>
      let drawn := draw unpicked.length source
      match unpicked[drawn.1]? with
      | none => chosen
      | some element => pick draw count element (unpicked.eraseIdx drawn.1) drawn.2

end Fabula.Random
