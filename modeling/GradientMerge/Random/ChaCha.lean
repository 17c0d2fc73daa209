/-!
Contract: blocks of the ChaCha stream function with twelve rounds.

Owns: the quarter round, the rounds on the sixteen words of a state, and the block at a counter for
a key without nonce.

Does not own: how keys arise or how the words are consumed.
-/

namespace GradientMerge

namespace ChaCha

/-- The sixteen words of a state. -/
abbrev State := Vector UInt32 16

/-- A key of eight words. -/
abbrev Key := Vector UInt32 8

/-- The word turned left by a number of bits below 32. -/
def rotateLeft (word amount : UInt32) : UInt32 :=
  (word <<< amount) ||| (word >>> (32 - amount))

/-- Mixes the four words at these places. -/
def quarterRound (a b c d : Fin 16) (state : State) : State :=
  let state := state.set a (state[a] + state[b])
  let state := state.set d (rotateLeft (state[d] ^^^ state[a]) 16)
  let state := state.set c (state[c] + state[d])
  let state := state.set b (rotateLeft (state[b] ^^^ state[c]) 12)
  let state := state.set a (state[a] + state[b])
  let state := state.set d (rotateLeft (state[d] ^^^ state[a]) 8)
  let state := state.set c (state[c] + state[d])
  state.set b (rotateLeft (state[b] ^^^ state[c]) 7)

/-- Mixes the four columns, then the four diagonals. -/
def doubleRound (state : State) : State :=
  let state := quarterRound 0 4 8 12 state
  let state := quarterRound 1 5 9 13 state
  let state := quarterRound 2 6 10 14 state
  let state := quarterRound 3 7 11 15 state
  let state := quarterRound 0 5 10 15 state
  let state := quarterRound 1 6 11 12 state
  let state := quarterRound 2 7 8 13 state
  quarterRound 3 4 9 14 state

/-- The state before the rounds: four constant words, the key, a counter of two words, and two
words of nonce, which are zero. -/
def initial (key : Key) (counter : UInt64) : State :=
  #v[0x61707865, 0x3320646e, 0x79622d32, 0x6b206574,
    key[0], key[1], key[2], key[3], key[4], key[5], key[6], key[7],
    counter.toUInt32, (counter >>> 32).toUInt32, 0, 0]

/-- The sixteen words of stream at a counter: the state after six double rounds, added to the state
before them. -/
def block (key : Key) (counter : UInt64) : State :=
  let start := initial key counter
  let mixed := Nat.repeat doubleRound 6 start
  Vector.zipWith (· + ·) start mixed

end ChaCha

end GradientMerge
