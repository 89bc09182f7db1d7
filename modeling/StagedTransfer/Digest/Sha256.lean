import StagedTransfer.Text.Hex

/-!
# SHA-256

The digest by which a file is recognised after its round trip. `digest` is the definition: the
message is padded, cut into blocks and folded. `Hasher` takes a message in pieces and keeps only
the bytes that do not fill a block yet. A file is read into one buffer over and over, and only the
bytes of the last read are taken from it.
-/

namespace StagedTransfer.Sha256

/-! ### The compression function -/

/-- The eight words carried from block to block. -/
structure Chain where
  a : UInt32
  b : UInt32
  c : UInt32
  d : UInt32
  e : UInt32
  f : UInt32
  g : UInt32
  h : UInt32
  deriving DecidableEq, Repr

/-- The words before the first block: fractions of the square roots of the first primes. -/
def Chain.initial : Chain :=
  ⟨0x6a09e667, 0xbb67ae85, 0x3c6ef372, 0xa54ff53a, 0x510e527f, 0x9b05688c, 0x1f83d9ab, 0x5be0cd19⟩

/-- The constant of each round: fractions of the cube roots of the first primes. -/
def roundConstants : Array UInt32 := #[
  0x428a2f98, 0x71374491, 0xb5c0fbcf, 0xe9b5dba5, 0x3956c25b, 0x59f111f1, 0x923f82a4, 0xab1c5ed5,
  0xd807aa98, 0x12835b01, 0x243185be, 0x550c7dc3, 0x72be5d74, 0x80deb1fe, 0x9bdc06a7, 0xc19bf174,
  0xe49b69c1, 0xefbe4786, 0x0fc19dc6, 0x240ca1cc, 0x2de92c6f, 0x4a7484aa, 0x5cb0a9dc, 0x76f988da,
  0x983e5152, 0xa831c66d, 0xb00327c8, 0xbf597fc7, 0xc6e00bf3, 0xd5a79147, 0x06ca6351, 0x14292967,
  0x27b70a85, 0x2e1b2138, 0x4d2c6dfc, 0x53380d13, 0x650a7354, 0x766a0abb, 0x81c2c92e, 0x92722c85,
  0xa2bfe8a1, 0xa81a664b, 0xc24b8b70, 0xc76c51a3, 0xd192e819, 0xd6990624, 0xf40e3585, 0x106aa070,
  0x19a4c116, 0x1e376c08, 0x2748774c, 0x34b0bcb5, 0x391c0cb3, 0x4ed8aa4a, 0x5b9cca4f, 0x682e6ff3,
  0x748f82ee, 0x78a5636f, 0x84c87814, 0x8cc70208, 0x90befffa, 0xa4506ceb, 0xbef9a3f7, 0xc67178f2]

def rotate (x : UInt32) (n : UInt32) : UInt32 :=
  (x >>> n) ||| (x <<< (32 - n))

/-- Four bytes as a word, the first the most significant. -/
def word (a b c d : UInt8) : UInt32 :=
  (a.toUInt32 <<< 24) ||| (b.toUInt32 <<< 16) ||| (c.toUInt32 <<< 8) ||| d.toUInt32

/-- The words of a block, after those in `found`. -/
def words (found : Array UInt32) : Bytes → Array UInt32
  | a :: b :: c :: d :: s => words (found.push (word a b c d)) s
  | _                     => found

/-- The schedule with `n` words more, each computed from the sixteen before it. -/
def extend : (n : Nat) → Array UInt32 → Array UInt32
  | 0,     w => w
  | n + 1, w =>
    let at' (back : Nat) := w.getD (w.size - back) 0
    let x := at' 15
    let y := at' 2
    let s₀ := rotate x 7 ^^^ rotate x 18 ^^^ (x >>> 3)
    let s₁ := rotate y 17 ^^^ rotate y 19 ^^^ (y >>> 10)
    extend n (w.push (at' 16 + s₀ + at' 7 + s₁))

def Chain.round (s : Chain) (constant scheduled : UInt32) : Chain :=
  let s₁ := rotate s.e 6 ^^^ rotate s.e 11 ^^^ rotate s.e 25
  let choice := (s.e &&& s.f) ^^^ (~~~ s.e &&& s.g)
  let t₁ := s.h + s₁ + choice + constant + scheduled
  let s₀ := rotate s.a 2 ^^^ rotate s.a 13 ^^^ rotate s.a 22
  let majority := (s.a &&& s.b) ^^^ (s.a &&& s.c) ^^^ (s.b &&& s.c)
  ⟨t₁ + (s₀ + majority), s.a, s.b, s.c, s.d + t₁, s.e, s.f, s.g⟩

/-- The last `n` of the sixty-four rounds. -/
def rounds (schedule : Array UInt32) : (n : Nat) → Chain → Chain
  | 0,     s => s
  | n + 1, s =>
    let i := 63 - n
    rounds schedule n (s.round (roundConstants.getD i 0) (schedule.getD i 0))

def compress (s : Chain) (block : Bytes) : Chain :=
  let schedule := extend 48 (words (Array.mkEmpty 64) block)
  let t := rounds schedule 64 s
  ⟨s.a + t.a, s.b + t.b, s.c + t.c, s.d + t.d, s.e + t.e, s.f + t.f, s.g + t.g, s.h + t.h⟩

/-! ### Messages -/

/-- The words after all full blocks of the bytes, and the bytes that fill none. -/
def absorbBlocks (s : Chain) (bytes : Bytes) : Chain × Bytes :=
  let block := bytes.take 64
  if _h : block.length = 64 then absorbBlocks (compress s block) (bytes.drop 64) else (s, bytes)
termination_by bytes.length
decreasing_by
  simp only [block, List.length_take, List.length_drop] at *
  omega

def lengthBytes (n : Nat) : Bytes :=
  (List.range 8).map fun i => UInt8.ofNat (n / Nat.pow 256 (7 - i))

/-- What is added to a message of `size` bytes to fill its last block: a set bit, then unset bits,
then the length in bits. -/
def padding (size : Nat) : Bytes :=
  0x80 :: List.replicate ((119 - size % 64) % 64) 0 ++ lengthBytes (size * 8)

def wordBytes (w : UInt32) : Bytes :=
  [(w >>> 24).toUInt8, (w >>> 16).toUInt8, (w >>> 8).toUInt8, w.toUInt8]

def Chain.toBytes (s : Chain) : Bytes :=
  [s.a, s.b, s.c, s.d, s.e, s.f, s.g, s.h].flatMap wordBytes

/-- The digest of a message: all blocks of the padded message, from the first words on. -/
def digest (message : Bytes) : Bytes :=
  (absorbBlocks .initial (message ++ padding message.length)).1.toBytes

/-- The digest as sixty-four lower-case digits. -/
def checksum (message : Bytes) : String :=
  Hex.ofBytes (digest message)

/-! ### Messages in pieces -/

/-- A message of which a part has been seen. -/
structure Hasher where
  chain   : Chain
  /-- The bytes that do not fill a block yet. -/
  pending : Bytes
  size    : Nat

def Hasher.empty : Hasher :=
  ⟨.initial, [], 0⟩

def Hasher.update (h : Hasher) (piece : Bytes) : Hasher :=
  let (chain, pending) := absorbBlocks h.chain (h.pending ++ piece)
  ⟨chain, pending, h.size + piece.length⟩

def Hasher.finish (h : Hasher) : Bytes :=
  (absorbBlocks h.chain (h.pending ++ padding h.size)).1.toBytes

/-! ### Files read piece by piece -/

/-- The size of the buffer that a file is read into, and so the most bytes that one read delivers. -/
def pieceSize : Nat := 8192

/-- The buffer after a read, and how many of its bytes are new. What stands behind them is left from
the reads before. -/
def refill (buffer delivered : Bytes) : Bytes × Nat :=
  let n := min delivered.length buffer.length
  (delivered.take n ++ buffer.drop n, n)

/-- The hasher after the reads of a file, up to the first that delivers nothing. After those that are
listed the file is at its end. -/
def Hasher.readAll (h : Hasher) (buffer : Bytes) : (reads : List Bytes) → Hasher
  | []                 => h
  | delivered :: reads =>
    let (buffer, n) := refill buffer delivered
    if n = 0 then h else (h.update (buffer.take n)).readAll buffer reads

/-- The digest text of a file that is read piece by piece. -/
def checksumOfPieces (pieces : List Bytes) : String :=
  Hex.ofBytes (Hasher.empty.readAll (List.replicate pieceSize 0) pieces).finish

/-- A content cut into pieces of `size` bytes and a shorter last one. -/
def pieces (size : Nat) (content : Bytes) : List Bytes :=
  if _h : content = [] ∨ size = 0 then []
  else content.take size :: pieces size (content.drop size)
termination_by content.length
decreasing_by
  have : content.length ≠ 0 := fun h => _h (.inl (List.length_eq_zero_iff.1 h))
  simp only [List.length_drop]
  omega

/-- The digest text of a file whose reads are all full. -/
def fileChecksum (content : Bytes) : String :=
  checksumOfPieces (pieces pieceSize content)

end StagedTransfer.Sha256
