/-!
# Random bytes

The machine draws its random bytes from ChaCha with twelve rounds. A `Key` of eight
words starts a stream of words: block after block of sixteen, each a function of the
key and the number of the block (`word`). A draw takes one whole word and keeps its low
byte, so a stream is known by its key and the number of words drawn (`Stream`).

A seed of 64 bits is stretched to a key by eight steps of a permuted congruential
generator (`Key.ofSeed`). Where no seed is given, every power-on takes the next key of a
supply (`Supply`).
-/

namespace Chip8VM.Random

/-! ## Keys -/

/-- What starts a stream. -/
abbrev Key := Vector UInt32 8

/-- One step of the congruential generator. -/
def advance (s : UInt64) : UInt64 := s * 6364136223846793005 + 11634580027462260723

/-- Rotates a word to the left. -/
def rotateLeft (x k : UInt32) : UInt32 := x <<< k ||| x >>> (32 - k)

/-- The word that the congruential generator gives in a state: folded high bits, rotated
to the right by the number in the highest five. -/
def permute (s : UInt64) : UInt32 :=
  let folded : UInt64 := ((s >>> 18) ^^^ s) >>> 27
  let turn : UInt64 := s >>> 59
  rotateLeft folded.toUInt32 (32 - turn.toUInt32)

/-- The key that a seed is stretched to. -/
def Key.ofSeed (seed : UInt64) : Key :=
  Vector.ofFn fun k : Fin 8 => permute (Nat.repeat advance (k + 1) seed)

/-! ## Blocks -/

/-- The state of the cipher: sixteen words. -/
abbrev Block := Vector UInt32 16

/-- The word at a place of a block. -/
def Block.wordAt (s : Block) (place : Nat) : UInt32 := s[place]?.getD 0

/-- The block with another word at a place. -/
def Block.put (s : Block) (place : Nat) (x : UInt32) : Block := s.setIfInBounds place x

/-- Adds the word at `b` to the one at `a`, and turns the word at `d` by `k` after mixing the
sum into it. -/
def addTurn (s : Block) (a b d : Nat) (k : UInt32) : Block :=
  let s := s.put a (s.wordAt a + s.wordAt b)
  s.put d (rotateLeft (s.wordAt d ^^^ s.wordAt a) k)

/-- Mixes four words of a block. -/
def quarterRound (s : Block) (a b c d : Nat) : Block :=
  let s := addTurn s a b d 16
  let s := addTurn s c d b 12
  let s := addTurn s a b d 8
  addTurn s c d b 7

/-- Two rounds: the columns of the block, then its diagonals. -/
def doubleRound (s : Block) : Block :=
  let s := quarterRound s 0 4 8 12
  let s := quarterRound s 1 5 9 13
  let s := quarterRound s 2 6 10 14
  let s := quarterRound s 3 7 11 15
  let s := quarterRound s 0 5 10 15
  let s := quarterRound s 1 6 11 12
  let s := quarterRound s 2 7 8 13
  quarterRound s 3 4 9 14

/-- The block before mixing: four constants, the key, the number of the block and two
zero words. -/
def seedBlock (key : Key) (number : UInt64) : Block :=
  #v[0x61707865, 0x3320646e, 0x79622d32, 0x6b206574,
    key[0], key[1], key[2], key[3], key[4], key[5], key[6], key[7],
    number.toUInt32, (number >>> 32).toUInt32, 0, 0]

/-- A block of the stream: six double rounds, added to what they started from. -/
def block (key : Key) (number : UInt64) : Block :=
  let start := seedBlock key number
  start.zipWith (· + ·) (Nat.repeat doubleRound 6 start)

/-! ## Streams -/

/-- The `n`-th word of a key's stream, counted from zero. -/
def word (key : Key) (n : Nat) : UInt32 :=
  (block key (UInt64.ofNat (n / 16))).wordAt (n % 16)

/-- The random bytes still to come. -/
structure Stream where
  /-- The key of the stream. -/
  key : Key
  /-- The number of words drawn. -/
  drawn : Nat
  deriving DecidableEq

namespace Stream

/-- A key's stream from its first word. -/
def start (key : Key) : Stream := ⟨key, 0⟩

/-- The byte drawn next: the low byte of the next word. -/
def byte (stream : Stream) : UInt8 := (word stream.key stream.drawn).toUInt8

/-- The stream after one draw. -/
def rest (stream : Stream) : Stream := { stream with drawn := stream.drawn + 1 }

end Stream

/-- Keys for the power-ons of a machine that was given no seed. -/
structure Supply where
  /-- The keys, in the order of their use. -/
  keys : Nat → Key
  /-- The number of keys used. -/
  used : Nat

namespace Supply

/-- The key to use next. -/
def next (supply : Supply) : Key := supply.keys supply.used

/-- The supply after one use. -/
def rest (supply : Supply) : Supply := { supply with used := supply.used + 1 }

end Supply

end Chip8VM.Random
