/-!
What the secure hash algorithms have in common: messages are padded to whole blocks of sixteen
32-bit words, and each block is compressed into a running state over a schedule of words that starts
with the block and goes on by a recurrence over the last sixteen.
-/
namespace FleetSync.Digest

def rotateLeft (x : UInt32) (n : UInt32) : UInt32 := (x <<< n) ||| (x >>> (32 - n))

def rotateRight (x : UInt32) (n : UInt32) : UInt32 := (x >>> n) ||| (x <<< (32 - n))

/-- The bytes of a number, most significant first. -/
def bigEndian (count n : Nat) : List UInt8 :=
  (List.range count).reverse.map fun i => UInt8.ofNat (n / Nat.pow 256 i)

/-- The message, a one bit, zeros up to a whole block, and the length of the message in bits. -/
def padded (message : List UInt8) : List UInt8 :=
  message ++ 0x80 :: List.replicate ((119 - message.length % 64) % 64) 0 ++
    bigEndian 8 (8 * message.length)

/-- Bytes taken four at a time as words. -/
def words : List UInt8 → List UInt32
  | a :: b :: c :: d :: rest =>
    (a.toUInt32 <<< 24 ||| b.toUInt32 <<< 16 ||| c.toUInt32 <<< 8 ||| d.toUInt32) :: words rest
  | _ => []

/-- Words taken sixteen at a time as blocks. -/
def blocks (ws : List UInt32) : List (List UInt32) :=
  if ws = [] then [] else ws.take 16 :: blocks (ws.drop 16)
termination_by ws.length
decreasing_by
  rename_i h
  have := List.length_pos_iff.2 h
  simp only [List.length_drop]
  omega

/-- Runs one round for each constant. The window holds the word of the round and the fifteen that
follow it; `next` makes the sixteenth. -/
def runRounds {State Constant : Type} (step : State → Constant → UInt32 → State)
    (next : List UInt32 → UInt32) : List Constant → List UInt32 → State → State
  | [], _, s => s
  | k :: ks, window, s =>
    runRounds step next ks (window.drop 1 ++ [next window]) (step s k (window.headD 0))

end FleetSync.Digest
