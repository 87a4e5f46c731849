/-!
The digest of a text: BLAKE3 of its UTF-8 bytes, 32 bytes long, in hexadecimal.
-/
namespace Flowstep.Digest

abbrev Words := Array UInt32

def initial : Words :=
  #[0x6A09E667, 0xBB67AE85, 0x3C6EF372, 0xA54FF53A, 0x510E527F, 0x9B05688C, 0x1F83D9AB, 0x5BE0CD19]

def schedule : List Nat := [2, 6, 3, 10, 7, 0, 4, 13, 1, 11, 12, 5, 9, 14, 15, 8]

def quarters : List (Nat × Nat × Nat × Nat) :=
  [(0, 4, 8, 12), (1, 5, 9, 13), (2, 6, 10, 14), (3, 7, 11, 15),
    (0, 5, 10, 15), (1, 6, 11, 12), (2, 7, 8, 13), (3, 4, 9, 14)]

def rotateRight (x k : UInt32) : UInt32 := (x >>> k) ||| (x <<< (32 - k))

def mix (v : Words) (q : Nat × Nat × Nat × Nat) (x y : UInt32) : Words :=
  let (ia, ib, ic, id) := q
  let a := v.getD ia 0 + v.getD ib 0 + x
  let d := rotateRight (v.getD id 0 ^^^ a) 16
  let c := v.getD ic 0 + d
  let b := rotateRight (v.getD ib 0 ^^^ c) 12
  let a := a + b + y
  let d := rotateRight (d ^^^ a) 8
  let c := c + d
  let b := rotateRight (b ^^^ c) 7
  (((v.setIfInBounds ia a).setIfInBounds ib b).setIfInBounds ic c).setIfInBounds id d

def mixRound (v block : Words) : Words :=
  quarters.zipIdx.foldl (fun v (q, i) => mix v q (block.getD (2 * i) 0) (block.getD (2 * i + 1) 0)) v

def permute (block : Words) : Words := (schedule.map fun i => block.getD i 0).toArray

def mixRounds : Nat → Words → Words → Words
  | 0, v, _ => v
  | n + 1, v, block => mixRounds n (mixRound v block) (permute block)

structure Block where
  chaining : Words
  words : Words
  counter : Nat
  length : Nat
  flags : UInt32

def chunkStart : UInt32 := 1
def chunkEnd : UInt32 := 2
def parent : UInt32 := 4
def root : UInt32 := 8

def Block.compress (b : Block) (flags : UInt32) : Words :=
  let tail : Words := #[UInt32.ofNat b.counter, UInt32.ofNat (b.counter >>> 32),
    UInt32.ofNat b.length, b.flags ||| flags]
  let v := mixRounds 7 (b.chaining ++ initial.extract 0 4 ++ tail) b.words
  ((List.range 8).map fun i => v.getD i 0 ^^^ v.getD (i + 8) 0).toArray

def wordOf (bytes : List UInt8) : UInt32 := bytes.foldr (fun b w => w * 256 + b.toUInt32) 0

def wordsOf (bytes : List UInt8) : Words :=
  ((List.range 16).map fun i => wordOf ((bytes.drop (4 * i)).take 4)).toArray

def chunkBlock (counter : Nat) (chaining : Words) (flags : UInt32) (bytes : List UInt8) : Block :=
  if bytes.length ≤ 64 then ⟨chaining, wordsOf bytes, counter, bytes.length, flags ||| chunkEnd⟩
  else
    let first : Block := ⟨chaining, wordsOf (bytes.take 64), counter, 64, flags⟩
    chunkBlock counter (first.compress 0) 0 (bytes.drop 64)
termination_by bytes.length
decreasing_by simp only [List.length_drop]; omega

-- The bytes in the left half of a tree over `size` bytes: the greatest power of two of whole
-- chunks that leaves something for the right half.
def leftSize (size : Nat) : Nat := 1024 <<< ((size - 1) / 1024).log2

theorem left_size_lt {size : Nat} (h : 1024 < size) : leftSize size < size := by
  have chunks : (size - 1) / 1024 ≠ 0 := by omega
  have power := Nat.log2_self_le chunks
  rw [leftSize, Nat.shiftLeft_eq]
  omega

theorem left_size_pos (size : Nat) : 0 < leftSize size := by
  rw [leftSize, Nat.shiftLeft_eq]
  exact Nat.mul_pos (by decide) (Nat.two_pow_pos _)

def treeBlock (counter : Nat) (bytes : List UInt8) : Block :=
  if h : bytes.length ≤ 1024 then chunkBlock counter initial chunkStart bytes
  else
    let size := leftSize bytes.length
    have : size < bytes.length := left_size_lt (by omega)
    have : 0 < size := left_size_pos bytes.length
    let left := treeBlock counter (bytes.take size)
    let right := treeBlock (counter + size / 1024) (bytes.drop size)
    ⟨initial, left.compress 0 ++ right.compress 0, 0, 64, parent⟩
termination_by bytes.length
decreasing_by
  · simp only [List.length_take]; omega
  · simp only [List.length_drop]; omega

def bytesOf (w : UInt32) : List Nat :=
  let n := w.toNat
  [n % 256, n / 256 % 256, n / 65536 % 256, n / 16777216]

def hexByte (n : Nat) : List Char := [Nat.digitChar (n / 16), Nat.digitChar (n % 16)]

def ofBytes (bytes : List UInt8) : String :=
  String.ofList (((treeBlock 0 bytes).compress root).toList.flatMap fun w => (bytesOf w).flatMap hexByte)

def ofText (s : String) : String := ofBytes s.toUTF8.toList

end Flowstep.Digest
