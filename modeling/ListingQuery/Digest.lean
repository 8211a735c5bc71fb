import ListingQuery.Json.Writer
import ListingQuery.QueryError

/-!
# Digests

The digest of a text is the BLAKE3 hash of its UTF-8 bytes: 256 bits.  The bytes are cut into
chunks of 1024, chunks into blocks of 64; blocks are chained within a chunk, and chunks are joined
by a binary tree whose left half holds the largest power of two of chunks that leaves something for
the right half.
-/

namespace ListingQuery

/-- A digest of 256 bits, as eight words. -/
structure Digest where
  words : Vector UInt32 8
deriving DecidableEq

namespace Digest

/-- The words that every digest starts from. -/
def start : Vector UInt32 8 :=
  #v[0x6A09E667, 0xBB67AE85, 0x3C6EF372, 0xA54FF53A, 0x510E527F, 0x9B05688C, 0x1F83D9AB,
    0x5BE0CD19]

/-- The mark of the first block of a chunk. -/
def chunkStart : UInt32 := 1

/-- The mark of the last block of a chunk. -/
def chunkEnd : UInt32 := 2

/-- The mark of an inner node of the tree. -/
def parent : UInt32 := 4

/-- The mark of the root of the tree. -/
def root : UInt32 := 8

/-- Turns a word to the right by a number of bits between 1 and 31. -/
def rotateRight (x : UInt32) (n : UInt32) : UInt32 :=
  (x >>> n) ||| (x <<< (32 - n))

/-- Mixes two words of the message into four words of the state. -/
def mix (v : Vector UInt32 16) (a b c d : Fin 16) (x y : UInt32) : Vector UInt32 16 :=
  let v := v.set a (v[a] + v[b] + x)
  let v := v.set d (rotateRight (v[d] ^^^ v[a]) 16)
  let v := v.set c (v[c] + v[d])
  let v := v.set b (rotateRight (v[b] ^^^ v[c]) 12)
  let v := v.set a (v[a] + v[b] + y)
  let v := v.set d (rotateRight (v[d] ^^^ v[a]) 8)
  let v := v.set c (v[c] + v[d])
  v.set b (rotateRight (v[b] ^^^ v[c]) 7)

/-- One round: the columns of the state, then its diagonals. -/
def round (v m : Vector UInt32 16) : Vector UInt32 16 :=
  let v := mix v 0 4 8 12 m[0] m[1]
  let v := mix v 1 5 9 13 m[2] m[3]
  let v := mix v 2 6 10 14 m[4] m[5]
  let v := mix v 3 7 11 15 m[6] m[7]
  let v := mix v 0 5 10 15 m[8] m[9]
  let v := mix v 1 6 11 12 m[10] m[11]
  let v := mix v 2 7 8 13 m[12] m[13]
  mix v 3 4 9 14 m[14] m[15]

/-- The order of the message's words in the next round. -/
def permute (m : Vector UInt32 16) : Vector UInt32 16 :=
  #v[m[2], m[6], m[3], m[10], m[7], m[0], m[4], m[13], m[1], m[11], m[12], m[5], m[9], m[14],
    m[15], m[8]]

/-- A number of rounds. -/
def rounds (v m : Vector UInt32 16) : Nat → Vector UInt32 16
  | 0 => v
  | n + 1 => rounds (round v m) (permute m) n

/-- A block with everything that is mixed into it. -/
structure Block where
  chain : Vector UInt32 8
  message : Vector UInt32 16
  counter : UInt64
  size : UInt32
  marks : UInt32

/-- The eight words that a block leaves. -/
def Block.compress (b : Block) : Vector UInt32 8 :=
  let h := b.chain
  let v : Vector UInt32 16 :=
    #v[h[0], h[1], h[2], h[3], h[4], h[5], h[6], h[7], start[0], start[1], start[2], start[3],
      b.counter.toUInt32, (b.counter >>> 32).toUInt32, b.size, b.marks]
  let v := rounds v b.message 7
  #v[v[0] ^^^ v[8], v[1] ^^^ v[9], v[2] ^^^ v[10], v[3] ^^^ v[11], v[4] ^^^ v[12],
    v[5] ^^^ v[13], v[6] ^^^ v[14], v[7] ^^^ v[15]]

/-- Four bytes as a word, the first byte lowest; missing bytes are zero. -/
def wordOf (bytes : List UInt8) : UInt32 :=
  bytes.foldr (fun b w => b.toUInt32 ||| (w <<< 8)) 0

/-- Up to 64 bytes as sixteen words. -/
def messageOf (bytes : List UInt8) : Vector UInt32 16 :=
  Vector.ofFn fun i => wordOf ((bytes.drop (4 * i.val)).take 4)

/-- The last block of a chunk, all earlier ones chained. -/
def lastBlock (chain : Vector UInt32 8) (counter : UInt64) (marks : UInt32)
    (bytes : List UInt8) : Block :=
  if bytes.length ≤ 64 then
    ⟨chain, messageOf bytes, counter, UInt32.ofNat bytes.length, marks ||| chunkEnd⟩
  else
    let block : Block := ⟨chain, messageOf (bytes.take 64), counter, 64, marks⟩
    lastBlock block.compress counter 0 (bytes.drop 64)
termination_by bytes.length
decreasing_by simp; omega

/-- Of the chunks before the last one, the left half of the tree takes the largest power of two. -/
def leftChunks (chunks : Nat) : Nat := Nat.pow 2 chunks.log2

/-- The left half takes no chunk that is not there. -/
theorem leftChunks_le {chunks : Nat} (h : chunks ≠ 0) : leftChunks chunks ≤ chunks :=
  Nat.log2_self_le h

/-- The left half takes a chunk. -/
theorem leftChunks_pos (chunks : Nat) : 0 < leftChunks chunks :=
  Nat.two_pow_pos _

/-- The last block of the tree over some bytes; `counter` is the number of the first chunk. -/
def treeBlock (counter : UInt64) (bytes : List UInt8) : Block :=
  if bytes.length ≤ 1024 then lastBlock start counter chunkStart bytes
  else
    let chunks := leftChunks ((bytes.length - 1) / 1024)
    let left := treeBlock counter (bytes.take (1024 * chunks))
    let right := treeBlock (counter + UInt64.ofNat chunks) (bytes.drop (1024 * chunks))
    ⟨start, left.compress ++ right.compress, 0, 64, parent⟩
termination_by bytes.length
decreasing_by
  · have := @leftChunks_le ((bytes.length - 1) / 1024) (by omega)
    rw [List.length_take]
    omega
  · have := leftChunks_pos ((bytes.length - 1) / 1024)
    rw [List.length_drop]
    omega

/-- The digest of some bytes. -/
def ofBytes (bytes : List UInt8) : Digest :=
  let block := treeBlock 0 bytes
  ⟨{ block with marks := block.marks ||| root }.compress⟩

/-- The digest of a text. -/
def ofString (s : String) : Digest :=
  ofBytes s.toUTF8.data.toList

/-- The digest of a tree's text on one line. -/
def ofJson (j : Json) : Digest :=
  ofString j.compact

/-- The digest of a tree's text on one line, if the tree has a text. -/
def ofJson? (j : Json) : Except QueryError Digest :=
  if j.isReadable then .ok (ofJson j) else .error (.internal "key must be a string")

/-- Joins two digests, in either order. -/
def xor (a b : Digest) : Digest :=
  ⟨a.words.zipWith (· ^^^ ·) b.words⟩

/-- The 32 bytes of a digest. -/
def bytes (d : Digest) : List UInt8 :=
  d.words.toList.flatMap fun (w : UInt32) =>
    [w.toUInt8, (w >>> 8).toUInt8, (w >>> 16).toUInt8, (w >>> 24).toUInt8]

/-- The text of a digest: two hexadecimal digits for each byte. -/
def text (d : Digest) : String :=
  String.ofList (d.bytes.flatMap fun (b : UInt8) =>
    [Json.hexDigit (b.toNat / 16), Json.hexDigit (b.toNat % 16)])

/-- A digest as JSON: its bytes as numbers. -/
def toJson (d : Digest) : Json :=
  .array (d.bytes.map fun (b : UInt8) => .int b.toNat)

end Digest

end ListingQuery
