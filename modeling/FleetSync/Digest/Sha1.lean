import FleetSync.Digest.Block

/-!
The 160-bit secure hash.
-/
namespace FleetSync.Digest.Sha1

/-- The five words of the running state. -/
structure State where
  (a b c d e : UInt32)

def initial : State := ⟨0x67452301, 0xefcdab89, 0x98badcfe, 0x10325476, 0xc3d2e1f0⟩

/-- What a round does to its middle words, and the constant it adds. -/
inductive Phase where | choice | firstParity | majority | lastParity
  deriving DecidableEq

namespace Phase

def mix (p : Phase) (b c d : UInt32) : UInt32 :=
  match p with
  | choice => (b &&& c) ||| (~~~b &&& d)
  | majority => (b &&& c) ||| (b &&& d) ||| (c &&& d)
  | firstParity | lastParity => b ^^^ c ^^^ d

def constant : Phase → UInt32
  | choice => 0x5a827999
  | firstParity => 0x6ed9eba1
  | majority => 0x8f1bbcdc
  | lastParity => 0xca62c1d6

end Phase

/-- Twenty rounds of each phase. -/
def phases : List Phase :=
  [.choice, .firstParity, .majority, .lastParity].flatMap (List.replicate 20)

def round (s : State) (p : Phase) (w : UInt32) : State :=
  ⟨rotateLeft s.a 5 + p.mix s.b s.c s.d + s.e + p.constant + w, s.a, rotateLeft s.b 30, s.c, s.d⟩

/-- The word that follows sixteen words of the schedule. -/
def next (window : List UInt32) : UInt32 :=
  rotateLeft
    (window.getD 13 0 ^^^ window.getD 8 0 ^^^ window.getD 2 0 ^^^ window.getD 0 0) 1

def compress (s : State) (block : List UInt32) : State :=
  let r := runRounds round next phases block s
  ⟨s.a + r.a, s.b + r.b, s.c + r.c, s.d + r.d, s.e + r.e⟩

/-- The digest of a message, 20 bytes. -/
def digest (message : List UInt8) : List UInt8 :=
  let s := (blocks (words (padded message))).foldl compress initial
  [s.a, s.b, s.c, s.d, s.e].flatMap fun w => bigEndian 4 w.toNat

end FleetSync.Digest.Sha1
