/-! # The BLAKE3 hash

The hash of a byte string is computed over a binary tree whose leaves are chunks of 1024 bytes:
the left part of a tree always holds the largest power of two of chunks that leaves some for the
right part. Each chunk is folded block by block, and each inner node compresses the chaining
values of its two parts.
-/

namespace CodeSearch.Digest.Blake3

/-- Four words that are mixed side by side. -/
structure Row where
  a : UInt32
  b : UInt32
  c : UInt32
  d : UInt32
  deriving Repr, DecidableEq

namespace Row

def map₂ (f : UInt32 → UInt32 → UInt32) (x y : Row) : Row :=
  ⟨f x.a y.a, f x.b y.b, f x.c y.c, f x.d y.d⟩

instance : Add Row := ⟨map₂ (· + ·)⟩
instance : XorOp Row := ⟨map₂ (· ^^^ ·)⟩

/-- Rotate every word to the right. -/
def rotate (n : UInt32) (x : Row) : Row :=
  let turn (w : UInt32) := (w >>> n) ||| (w <<< (32 - n))
  ⟨turn x.a, turn x.b, turn x.c, turn x.d⟩

/-- The words moved one place to the left. -/
def shift (x : Row) : Row :=
  ⟨x.b, x.c, x.d, x.a⟩

def toList (x : Row) : List UInt32 :=
  [x.a, x.b, x.c, x.d]

end Row

/-- A message block: sixteen words. -/
structure Block where
  m0 : UInt32
  m1 : UInt32
  m2 : UInt32
  m3 : UInt32
  m4 : UInt32
  m5 : UInt32
  m6 : UInt32
  m7 : UInt32
  m8 : UInt32
  m9 : UInt32
  m10 : UInt32
  m11 : UInt32
  m12 : UInt32
  m13 : UInt32
  m14 : UInt32
  m15 : UInt32
  deriving Repr, DecidableEq

namespace Block

/-- The order of the words in the next round. -/
def permute (m : Block) : Block :=
  ⟨m.m2, m.m6, m.m3, m.m10, m.m7, m.m0, m.m4, m.m13,
   m.m1, m.m11, m.m12, m.m5, m.m9, m.m14, m.m15, m.m8⟩

/-- Little-endian word `i` of a byte string, with zeros behind its end. -/
def wordAt (bytes : List UInt8) (i : Nat) : UInt32 :=
  let byte (k : Nat) : UInt32 := (bytes.getD (4 * i + k) 0).toUInt32
  byte 0 ||| (byte 1 <<< 8) ||| (byte 2 <<< 16) ||| (byte 3 <<< 24)

/-- A block of up to 64 bytes, filled up with zeros. -/
def ofBytes (bytes : List UInt8) : Block :=
  let w := wordAt bytes
  ⟨w 0, w 1, w 2, w 3, w 4, w 5, w 6, w 7, w 8, w 9, w 10, w 11, w 12, w 13, w 14, w 15⟩

end Block

/-- A chaining value: eight words. -/
structure Chain where
  low : Row
  high : Row
  deriving Repr, DecidableEq

namespace Chain

def initial : Chain :=
  ⟨⟨0x6A09E667, 0xBB67AE85, 0x3C6EF372, 0xA54FF53A⟩,
   ⟨0x510E527F, 0x9B05688C, 0x1F83D9AB, 0x5BE0CD19⟩⟩

def words (v : Chain) : List UInt32 :=
  v.low.toList ++ v.high.toList

end Chain

/-- The sixteen words of the compression state, as rows. -/
structure State where
  r0 : Row
  r1 : Row
  r2 : Row
  r3 : Row
  deriving Repr, DecidableEq

namespace State

/-- Mix the four columns with the message words `x` and `y`. -/
def mix (s : State) (x y : Row) : State :=
  let r0 := s.r0 + s.r1 + x
  let r3 := (s.r3 ^^^ r0).rotate 16
  let r2 := s.r2 + r3
  let r1 := (s.r1 ^^^ r2).rotate 12
  let r0 := r0 + r1 + y
  let r3 := (r3 ^^^ r0).rotate 8
  let r2 := r2 + r3
  let r1 := (r1 ^^^ r2).rotate 7
  ⟨r0, r1, r2, r3⟩

/-- Turn the diagonals into columns. -/
def slant (s : State) : State :=
  ⟨s.r0, s.r1.shift, s.r2.shift.shift, s.r3.shift.shift.shift⟩

/-- Turn the columns back into diagonals. -/
def unslant (s : State) : State :=
  ⟨s.r0, s.r1.shift.shift.shift, s.r2.shift.shift, s.r3.shift⟩

/-- One round: the columns, then the diagonals. -/
def round (s : State) (m : Block) : State :=
  let s := s.mix ⟨m.m0, m.m2, m.m4, m.m6⟩ ⟨m.m1, m.m3, m.m5, m.m7⟩
  (s.slant.mix ⟨m.m8, m.m10, m.m12, m.m14⟩ ⟨m.m9, m.m11, m.m13, m.m15⟩).unslant

def rounds : Nat → State → Block → State
  | 0, s, _ => s
  | n + 1, s, m => rounds n (s.round m) m.permute

end State

def chunkStart : UInt32 := 1
def chunkEnd : UInt32 := 2
def parentFlag : UInt32 := 4
def rootFlag : UInt32 := 8

/-- What a node compresses: it gives a chaining value to its parent, or the hash at the root. -/
structure Node where
  chain : Chain
  block : Block
  counter : Nat
  length : UInt32
  flags : UInt32
  deriving Repr, DecidableEq

namespace Node

def compress (node : Node) (flags : UInt32) : Chain :=
  let start : State :=
    ⟨node.chain.low, node.chain.high, Chain.initial.low,
     ⟨node.counter.toUInt32, (node.counter >>> 32).toUInt32, node.length, node.flags ||| flags⟩⟩
  let s := State.rounds 7 start node.block
  ⟨s.r0 ^^^ s.r2, s.r1 ^^^ s.r3⟩

/-- The value handed to the parent. -/
def value (node : Node) : Chain :=
  node.compress 0

/-- The inner node over two parts. -/
def parent (left right : Node) : Node :=
  let l := left.value
  let r := right.value
  ⟨Chain.initial,
   ⟨l.low.a, l.low.b, l.low.c, l.low.d, l.high.a, l.high.b, l.high.c, l.high.d,
    r.low.a, r.low.b, r.low.c, r.low.d, r.high.a, r.high.b, r.high.c, r.high.d⟩,
   0, 64, parentFlag⟩

end Node

/-- The node of a chunk, from the block that begins at `bytes` on. -/
def chunkFrom (chain : Chain) (counter : Nat) (flags : UInt32) (bytes : List UInt8) : Node :=
  if _h : bytes.length ≤ 64 then
    ⟨chain, Block.ofBytes bytes, counter, bytes.length.toUInt32, flags ||| chunkEnd⟩
  else
    let node : Node := ⟨chain, Block.ofBytes (bytes.take 64), counter, 64, flags⟩
    chunkFrom node.value counter 0 (bytes.drop 64)
termination_by bytes.length
decreasing_by simp only [List.length_drop]; omega

/-- The node of one chunk, the `counter`-th of its text. -/
def chunk (counter : Nat) (bytes : List UInt8) : Node :=
  chunkFrom Chain.initial counter chunkStart bytes

/-- Number of bytes of the left part of a text of `n` bytes that does not fit one chunk: 1024
    times the largest power of two of chunks that leaves a byte for the right part. -/
def leftLength (n : Nat) : Nat :=
  1024 * Nat.pow 2 ((n - 1) / 1024).log2

theorem leftLength_pos (n : Nat) : 0 < leftLength n :=
  Nat.mul_pos (by decide) (Nat.pow_pos (by decide))

theorem leftLength_lt {n : Nat} (h : 1024 < n) : leftLength n < n := by
  have hq : (n - 1) / 1024 ≠ 0 := by omega
  have : Nat.pow 2 ((n - 1) / 1024).log2 ≤ (n - 1) / 1024 := Nat.log2_self_le hq
  unfold leftLength
  omega

/-- The node over the chunks of a text, of which `counter` come before it. -/
def tree (counter : Nat) (bytes : List UInt8) : Node :=
  if _h : bytes.length ≤ 1024 then chunk counter bytes
  else
    let left := leftLength bytes.length
    Node.parent (tree counter (bytes.take left)) (tree (counter + left / 1024) (bytes.drop left))
termination_by bytes.length
decreasing_by
  · have := leftLength_lt (n := bytes.length) (by omega)
    simp only [List.length_take]
    omega
  · have := leftLength_pos bytes.length
    simp only [List.length_drop]
    omega

/-- Four bytes, the lowest first. -/
def littleEndian (w : UInt32) : List UInt8 :=
  [w.toUInt8, (w >>> 8).toUInt8, (w >>> 16).toUInt8, (w >>> 24).toUInt8]

/-- The 32 bytes of the hash. -/
def hash (bytes : List UInt8) : List UInt8 :=
  (((tree 0 bytes).compress rootFlag).words).flatMap littleEndian

/-- A byte as two lowercase hexadecimal digits. -/
def hexByte (b : UInt8) : List Char :=
  [Nat.digitChar (b.toNat / 16), Nat.digitChar (b.toNat % 16)]

/-- The hash as 64 hexadecimal digits. -/
def hexHash (bytes : List UInt8) : String :=
  String.ofList ((hash bytes).flatMap hexByte)

end CodeSearch.Digest.Blake3

/-! ## Content hashes

Two texts count as the same content when the hashes of their UTF-8 forms agree.
-/

namespace CodeSearch.Digest

/-- The UTF-8 form of a text. -/
def utf8 (s : String) : List UInt8 :=
  s.toUTF8.toList

/-- The hash of a text as 64 hexadecimal digits. -/
def contentHash (s : String) : String :=
  Blake3.hexHash (utf8 s)

end CodeSearch.Digest
