import ChangeFeed.Bytes

/-!
SHA-256, the keyed hash HMAC built on it, and the iterated key of a salted password.
-/
namespace ChangeFeed.Digest.Sha256

structure State where
  a : UInt32
  b : UInt32
  c : UInt32
  d : UInt32
  e : UInt32
  f : UInt32
  g : UInt32
  h : UInt32

def initial : State :=
  ⟨0x6a09e667, 0xbb67ae85, 0x3c6ef372, 0xa54ff53a, 0x510e527f, 0x9b05688c, 0x1f83d9ab, 0x5be0cd19⟩

/-- The fractional parts of the cube roots of the first sixty-four primes. -/
def roots : Array UInt32 := #[
  0x428a2f98, 0x71374491, 0xb5c0fbcf, 0xe9b5dba5, 0x3956c25b, 0x59f111f1, 0x923f82a4, 0xab1c5ed5,
  0xd807aa98, 0x12835b01, 0x243185be, 0x550c7dc3, 0x72be5d74, 0x80deb1fe, 0x9bdc06a7, 0xc19bf174,
  0xe49b69c1, 0xefbe4786, 0x0fc19dc6, 0x240ca1cc, 0x2de92c6f, 0x4a7484aa, 0x5cb0a9dc, 0x76f988da,
  0x983e5152, 0xa831c66d, 0xb00327c8, 0xbf597fc7, 0xc6e00bf3, 0xd5a79147, 0x06ca6351, 0x14292967,
  0x27b70a85, 0x2e1b2138, 0x4d2c6dfc, 0x53380d13, 0x650a7354, 0x766a0abb, 0x81c2c92e, 0x92722c85,
  0xa2bfe8a1, 0xa81a664b, 0xc24b8b70, 0xc76c51a3, 0xd192e819, 0xd6990624, 0xf40e3585, 0x106aa070,
  0x19a4c116, 0x1e376c08, 0x2748774c, 0x34b0bcb5, 0x391c0cb3, 0x4ed8aa4a, 0x5b9cca4f, 0x682e6ff3,
  0x748f82ee, 0x78a5636f, 0x84c87814, 0x8cc70208, 0x90befffa, 0xa4506ceb, 0xbef9a3f7, 0xc67178f2]

def rotate (x n : UInt32) : UInt32 := (x >>> n) ||| (x <<< (32 - n))

/-- The sixteen words of a block followed by `n` words made from those before them. -/
def schedule : Nat → Array UInt32 → Array UInt32
  | 0, w => w
  | n + 1, w =>
    let i := w.size
    let x := w.getD (i - 15) 0
    let y := w.getD (i - 2) 0
    let s := rotate x 7 ^^^ rotate x 18 ^^^ (x >>> 3)
    let t := rotate y 17 ^^^ rotate y 19 ^^^ (y >>> 10)
    schedule n (w.push (w.getD (i - 16) 0 + s + w.getD (i - 7) 0 + t))

/-- The last `n` of the sixty-four rounds. -/
def rounds (w : Array UInt32) : Nat → (a b c d e f g h : UInt32) → State
  | 0, a, b, c, d, e, f, g, h => ⟨a, b, c, d, e, f, g, h⟩
  | n + 1, a, b, c, d, e, f, g, h =>
    let s := rotate e 6 ^^^ rotate e 11 ^^^ rotate e 25
    let choice := (e &&& f) ^^^ (~~~e &&& g)
    let x := h + s + choice + roots.getD (63 - n) 0 + w.getD (63 - n) 0
    let t := rotate a 2 ^^^ rotate a 13 ^^^ rotate a 22
    let majority := (a &&& b) ^^^ (a &&& c) ^^^ (b &&& c)
    rounds w n (x + t + majority) a b c (d + x) e f g

def compress (s : State) (block : Array UInt32) : State :=
  let t := rounds (schedule 48 block) 64 s.a s.b s.c s.d s.e s.f s.g s.h
  ⟨s.a + t.a, s.b + t.b, s.c + t.c, s.d + t.d, s.e + t.e, s.f + t.f, s.g + t.g, s.h + t.h⟩

def block (bs : Bytes) : Array UInt32 :=
  Array.ofFn fun i : Fin 16 => UInt32.ofNat (Bytes.toNat ((bs.drop (4 * i)).take 4))

/-- The end of a text of `length` bytes: its mark, zeros, and the length in bits. -/
def padding (length : Nat) : Bytes :=
  0x80 :: List.replicate ((119 - length % 64) % 64) 0 ++ Bytes.ofNat 8 (8 * length)

def blocks : Nat → Bytes → List (Array UInt32)
  | 0, _ => []
  | n + 1, bs => block bs :: blocks n (bs.drop 64)

def State.words (s : State) : List UInt32 := [s.a, s.b, s.c, s.d, s.e, s.f, s.g, s.h]

def State.bytes (s : State) : Bytes := s.words.flatMap fun w => Bytes.ofNat 4 w.toNat

/-- Takes in the rest of a text of which `before` bytes led to the state. -/
def absorb (s : State) (before : Nat) (bs : Bytes) : State :=
  let padded := bs ++ padding (before + bs.length)
  (blocks (padded.length / 64) padded).foldl compress s

def digest (bs : Bytes) : Bytes := (absorb initial 0 bs).bytes

/-- A key, as the two states that a keyed hash starts from. -/
structure Key where
  inner : State
  outer : State

def Key.ofBytes (key : Bytes) : Key :=
  let short := if key.length > 64 then digest key else key
  let full := short ++ List.replicate (64 - short.length) 0
  ⟨compress initial (block (full.map (· ^^^ 0x36))), compress initial (block (full.map (· ^^^ 0x5c)))⟩

def Key.state (k : Key) (bs : Bytes) : State :=
  absorb k.outer 64 (absorb k.inner 64 bs).bytes

def hmac (key bs : Bytes) : Bytes := ((Key.ofBytes key).state bs).bytes

/-- The one block that ends a text of 96 bytes whose last thirty-two are the words of a state. -/
def lastBlock (s : State) : Array UInt32 :=
  #[s.a, s.b, s.c, s.d, s.e, s.f, s.g, s.h, 0x80000000, 0, 0, 0, 0, 0, 0, 768]

/-- The keyed hash of the bytes of a state. -/
def Key.again (k : Key) (s : State) : State :=
  compress k.outer (lastBlock (compress k.inner (lastBlock s)))

def State.xor (s t : State) : State :=
  ⟨s.a ^^^ t.a, s.b ^^^ t.b, s.c ^^^ t.c, s.d ^^^ t.d, s.e ^^^ t.e, s.f ^^^ t.f, s.g ^^^ t.g,
    s.h ^^^ t.h⟩

def iterate (k : Key) : Nat → (last sum : State) → State
  | 0, _, sum => sum
  | n + 1, last, sum =>
    let next := k.again last
    iterate k n next (sum.xor next)

/-- The key of a salted password: the sum of `iterations` keyed hashes, each of the one before. -/
def saltedKey (password salt : Bytes) (iterations : Nat) : Bytes :=
  let k := Key.ofBytes password
  let first := k.state (salt ++ [0, 0, 0, 1])
  (iterate k (iterations - 1) first first).bytes

end ChangeFeed.Digest.Sha256
