import DiceOdds.Random.Words

/-!
# The ChaCha20 generator

A stream of 64-bit words from the block function of the stream cipher ChaCha
with twenty rounds: each block mixes a key of eight words with a block counter
and yields eight words of output.  A key is spread out from a 64-bit seed by
eight steps of a linear congruential generator.
-/

namespace DiceOdds

abbrev ChaCha.Block := Vector UInt32 16

/-- Rotates a word to the left; `amount` lies between 1 and 31. -/
def ChaCha.rotateLeft (word amount : UInt32) : UInt32 :=
  (word <<< amount) ||| (word >>> (32 - amount))

def ChaCha.quarterRound (block : ChaCha.Block) (a b c d : Fin 16) : ChaCha.Block :=
  let block := block.set a (block[a] + block[b])
  let block := block.set d (ChaCha.rotateLeft (block[d] ^^^ block[a]) 16)
  let block := block.set c (block[c] + block[d])
  let block := block.set b (ChaCha.rotateLeft (block[b] ^^^ block[c]) 12)
  let block := block.set a (block[a] + block[b])
  let block := block.set d (ChaCha.rotateLeft (block[d] ^^^ block[a]) 8)
  let block := block.set c (block[c] + block[d])
  block.set b (ChaCha.rotateLeft (block[b] ^^^ block[c]) 7)

/-- The places on which the eight quarter rounds of a double round work: first
the columns, then the diagonals. -/
def ChaCha.places : List (Fin 16 × Fin 16 × Fin 16 × Fin 16) :=
  [(0, 4, 8, 12), (1, 5, 9, 13), (2, 6, 10, 14), (3, 7, 11, 15),
    (0, 5, 10, 15), (1, 6, 11, 12), (2, 7, 8, 13), (3, 4, 9, 14)]

def ChaCha.doubleRound (block : ChaCha.Block) : ChaCha.Block :=
  ChaCha.places.foldl
    (fun block (a, b, c, d) => ChaCha.quarterRound block a b c d) block

def ChaCha.mix : Nat → ChaCha.Block → ChaCha.Block
  | 0, block => block
  | rounds + 1, block => ChaCha.mix rounds (ChaCha.doubleRound block)

/-- The block that is mixed: four constant words, the key, the counter and two
words of zero. -/
def ChaCha.input (key : Vector UInt32 8) (counter : UInt64) : ChaCha.Block :=
  (#v[0x61707865, 0x3320646e, 0x79622d32, 0x6b206574] : Vector UInt32 4) ++ key ++
    (#v[counter.toUInt32, (counter >>> 32).toUInt32, 0, 0] : Vector UInt32 4)

def ChaCha.output (key : Vector UInt32 8) (counter : UInt64) : ChaCha.Block :=
  let input := ChaCha.input key counter
  (ChaCha.mix 10 input).zipWith (· + ·) input

/-- Pairs of 32-bit words as 64-bit words, the low half first. -/
def ChaCha.pairs : List UInt32 → List UInt64
  | low :: high :: rest =>
      (high.toUInt64 <<< 32 ||| low.toUInt64) :: ChaCha.pairs rest
  | _ => []

/-- A position in the stream: the key, the counter of the next block, and the
words left of the present block. -/
structure ChaCha where
  key : Vector UInt32 8
  counter : UInt64
  pending : List UInt64
  deriving DecidableEq, Repr

def ChaCha.spread (state : UInt64) : UInt64 :=
  state * 6364136223846793005 + 11634580027462260723

def ChaCha.keyWord (state : UInt64) : UInt32 :=
  let word := (((state >>> 18) ^^^ state) >>> 27).toUInt32
  let amount := (state >>> 59).toUInt32
  (word >>> amount) ||| (word <<< ((32 - amount) % 32))

def ChaCha.spreadStates (seed : UInt64) : Vector UInt64 8 :=
  Vector.ofFn fun place => Nat.repeat ChaCha.spread (place.val + 1) seed

def ChaCha.ofSeed (seed : UInt64) : ChaCha :=
  { key := (ChaCha.spreadStates seed).map ChaCha.keyWord, counter := 0, pending := [] }

def ChaCha.next (stream : ChaCha) : UInt64 × ChaCha :=
  match stream.pending with
  | word :: pending => (word, { stream with pending })
  | [] =>
      match ChaCha.pairs (ChaCha.output stream.key stream.counter).toList with
      | word :: pending => (word, { stream with counter := stream.counter + 1, pending })
      | [] => (0, { stream with counter := stream.counter + 1 })

/-- The counter takes `2 ^ 64` values and each block gives eight words. -/
instance : WordSource ChaCha where
  next := ChaCha.next
  period _ := 2 ^ 67

end DiceOdds
