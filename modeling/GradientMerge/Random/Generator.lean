import GradientMerge.Number.Single
import GradientMerge.Random.ChaCha

/-!
Contract: the seeded random generator.

Owns:
- the key of a seed;
- the stream of words, read from the front, and the draws made of them: weights and coin tosses.

Does not own: what the draws are used for.
-/

namespace GradientMerge

/-- A random generator: a key, the number of words drawn from its stream so far, and the block of
the stream that holds the next word. -/
structure Generator where
  key : ChaCha.Key
  position : Nat
  block : ChaCha.State
  block_eq : block = ChaCha.block key (UInt64.ofNat (position / 16))

namespace Generator

/-- The state of the seed's own generator after one more step. -/
def advanceSeed (state : UInt64) : UInt64 :=
  state * 6364136223846793005 + 11634580027462260723

/-- The word that a state of the seed's own generator gives: its high bits, turned by its highest
five. -/
def seedWord (state : UInt64) : UInt32 :=
  let folded : UInt32 := (((state >>> 18) ^^^ state) >>> 27).toUInt32
  let turn : UInt32 := (state >>> 59).toUInt32
  (folded >>> turn) ||| (folded <<< ((32 - turn) &&& 31))

/-- The key of a seed: the words of the eight states after it. -/
def keyOfSeed (seed : UInt64) : ChaCha.Key :=
  Vector.ofFn fun index => seedWord (Nat.repeat advanceSeed (index.val + 1) seed)

/-- The generator with a key after a number of words. -/
def atPosition (key : ChaCha.Key) (position : Nat) : Generator :=
  ⟨key, position, ChaCha.block key (UInt64.ofNat (position / 16)), rfl⟩

/-- The generator of a seed, at the beginning of its stream. -/
def ofSeed (seed : UInt64) : Generator := atPosition (keyOfSeed seed) 0

/-- The generator after its next word. The block is computed anew only where one ends. -/
def advance (generator : Generator) : Generator :=
  if same : (generator.position + 1) / 16 = generator.position / 16 then
    { generator with
      position := generator.position + 1
      block_eq := by rw [same]; exact generator.block_eq }
  else
    atPosition generator.key (generator.position + 1)

/-- The next word. -/
def word (generator : Generator) : UInt32 :=
  generator.block.get ⟨generator.position % 16, Nat.mod_lt _ (by decide)⟩

/-- Draws a word. -/
def nextWord (generator : Generator) : UInt32 × Generator :=
  (generator.word, generator.advance)

/-- Draws two words, the low half of a number first. -/
def nextDouble (generator : Generator) : UInt64 × Generator :=
  let (low, generator) := generator.nextWord
  let (high, generator) := generator.nextWord
  (low.toUInt64 ||| (high.toUInt64 <<< 32), generator)

/-- Draws a weight from minus a half, included, to a half: the upper 23 bits of a word are the
fraction of a number between one and two, from which one and a half is taken in two steps. -/
def nextWeight (generator : Generator) : Single × Generator :=
  let (drawn, generator) := generator.nextWord
  let mantissa : Single := ⟨(drawn >>> 9) ||| 0x3f800000⟩
  let half : Single := ⟨0x3f000000⟩
  ((mantissa - 1) * 1 + -half, generator)

/-- Tosses a fair coin. -/
def nextToss (generator : Generator) : Bool × Generator :=
  let (drawn, generator) := generator.nextDouble
  (drawn < 0x8000000000000000, generator)

end Generator

end GradientMerge
