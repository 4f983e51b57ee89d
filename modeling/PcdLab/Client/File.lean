import PcdLab.Lib.Runs
import PcdLab.Lib.Slices
import PcdLab.Shared.Wire

/-! # The data file and its blocks

The clients read a whole file into memory and iterate over its blocks. The
iterator is modelled with its position, one `next` at a time; collecting what it
yields gives the slices of the buffer.
-/

namespace PcdLab.Client.File

open Lib.Runs Lib.Slices Shared.Wire

/-- A block size as the command line passes it: a positive `u32`. -/
structure BlockSize where
  val : Nat
  pos : 0 < val
  u32 : val < 2 ^ 32
  deriving Repr, DecidableEq

/-- `default_value = "1024"`. -/
def defaultBlockSize : BlockSize := ⟨1024, by decide, by decide⟩

structure BlockIterator where
  data : Bytes
  blockSize : BlockSize
  currentPos : Nat
  deriving Repr, DecidableEq

namespace BlockIterator

def new (data : Bytes) (blockSize : BlockSize) : BlockIterator := ⟨data, blockSize, 0⟩

def next (self : BlockIterator) : Option (Bytes × BlockIterator) :=
  if self.currentPos ≥ self.data.length then none
  else
    let stop := min (self.currentPos + self.blockSize.val) self.data.length
    let chunk := (self.data.take stop).drop self.currentPos
    some (chunk, { self with currentPos := stop })

theorem next_of_le {it : BlockIterator} (past : it.data.length ≤ it.currentPos) :
    it.next = none := by
  rw [next, if_pos past]

/-- The chunk which `next` copies is the slice at the current position. -/
theorem next_of_lt {it : BlockIterator} (inside : it.currentPos < it.data.length) :
    it.next = some ((it.data.drop it.currentPos).take it.blockSize.val,
      { it with currentPos := min (it.currentPos + it.blockSize.val) it.data.length }) := by
  have chunk : (it.data.take (min (it.currentPos + it.blockSize.val) it.data.length)).drop
      it.currentPos = (it.data.drop it.currentPos).take it.blockSize.val := by
    rw [List.drop_take, List.take_eq_take_iff, List.length_drop]
    omega
  rw [next, if_neg (by omega)]
  simp only [chunk]

theorem next_shrinks {it later : BlockIterator} {chunk : Bytes}
    (yielded : it.next = some (chunk, later)) :
    later.data.length - later.currentPos < it.data.length - it.currentPos := by
  have positive := it.blockSize.pos
  by_cases inside : it.currentPos < it.data.length
  · rw [next_of_lt inside] at yielded
    cases yielded
    simp only
    omega
  · rw [next_of_le (by omega)] at yielded
    cases yielded

/-- What a `for` loop over the iterator sees. -/
def collect (it : BlockIterator) : List Bytes :=
  match _h : it.next with
  | none => []
  | some (chunk, later) => chunk :: collect later
termination_by it.data.length - it.currentPos
decreasing_by exact next_shrinks _h

/-- Collecting from any position yields the slices of what is left of the buffer. -/
theorem collect_eq_slices (it : BlockIterator) :
    it.collect = slices it.blockSize.val (it.data.drop it.currentPos) := by
  induction it using collect.induct with
  | case1 it ended =>
      have past : it.data.length ≤ it.currentPos := by
        by_contra inside
        rw [next_of_lt (by omega)] at ended
        cases ended
      rw [collect, ended, List.drop_eq_nil_of_le past, slices_nil]
  | case2 it chunk later yielded ih =>
      have inside : it.currentPos < it.data.length := by
        by_contra past
        rw [next_of_le (by omega)] at yielded
        cases yielded
      have left : it.data.drop it.currentPos ≠ [] := by
        rw [Ne, List.drop_eq_nil_iff]
        omega
      have moved : it.data.drop (min (it.currentPos + it.blockSize.val) it.data.length) =
          (it.data.drop it.currentPos).drop it.blockSize.val := by
        rw [List.drop_drop]
        by_cases whole : it.currentPos + it.blockSize.val ≤ it.data.length
        · rw [Nat.min_eq_left whole]
        · rw [Nat.min_eq_right (by omega), List.drop_length, List.drop_eq_nil_of_le (by omega)]
      rw [collect, yielded, slices_of_ne_nil it.blockSize.pos left]
      simp only [ih]
      rw [next_of_lt inside] at yielded
      cases yielded
      simp only [moved]

/-! ## Call by call -/

/-- The iterator behind a call of `next` that yields a block. -/
def advance : Machine BlockIterator Unit := fun it _ => it.next.map Prod.snd

/-- A call is answered with a block as many times as there are blocks, and never again. -/
theorem exec_advance_isSome (it : BlockIterator) (calls : Nat) :
    (exec advance it (List.replicate calls ())).isSome ↔ calls ≤ it.collect.length := by
  induction calls generalizing it with
  | zero => simp only [List.replicate_zero, exec, Option.isSome_some, Nat.zero_le]
  | succ calls ih =>
      rw [List.replicate_succ, exec, collect]
      split
      · rename_i ended
        simp only [advance, ended, Option.map_none, Option.bind_none, Option.isSome_none,
          List.length_nil, Bool.false_eq_true, false_iff]
        omega
      · rename_i chunk later yielded
        simp only [advance, yielded, Option.map_some, Option.bind_some, List.length_cons]
        rw [Nat.succ_le_succ_iff, ← ih later]

/-- The loop invariant: the position never passes the end of the buffer. -/
theorem reach_currentPos {data : Bytes} {b : BlockSize} {it : BlockIterator}
    (reached : Reach advance anyStep (new data b) it) :
    it.data = data ∧ it.blockSize = b ∧ it.currentPos ≤ data.length := by
  apply reached.invariant
    (fun it => it.data = data ∧ it.blockSize = b ∧ it.currentPos ≤ data.length)
  · exact ⟨rfl, rfl, Nat.zero_le _⟩
  · rintro it call later ⟨rfl, rfl, inside⟩ - moved
    obtain ⟨⟨chunk, next⟩, yielded, rfl⟩ := Option.map_eq_some_iff.mp moved
    by_cases more : it.currentPos < it.data.length
    · rw [next_of_lt more] at yielded
      cases yielded
      exact ⟨rfl, rfl, Nat.min_le_right _ _⟩
    · rw [next_of_le (by omega)] at yielded
      cases yielded

/-- Of any buffer the iterator yields the slices, in order and to the last byte, and nowhere on
    the way does it slice out of bounds or overflow its position. -/
theorem block_iterator_exact (data : Bytes) (b : BlockSize) :
    (∀ calls, (exec advance (new data b) (List.replicate calls ())).isSome ↔
      calls ≤ data.length ⌈/⌉ b.val) ∧
    (new data b).collect.length = data.length ⌈/⌉ b.val ∧
    (new data b).collect.flatten = data ∧
    (∀ i chunk, (new data b).collect[i]? = some chunk →
      chunk = (data.take (min ((i + 1) * b.val) data.length)).drop (i * b.val) ∧
      1 ≤ chunk.length ∧ chunk.length ≤ b.val ∧
      (i + 1 < data.length ⌈/⌉ b.val → chunk.length = b.val)) ∧
    ∀ it, Reach advance anyStep (new data b) it → it.currentPos < it.data.length →
      it.currentPos ≤ min (it.currentPos + it.blockSize.val) it.data.length ∧
      min (it.currentPos + it.blockSize.val) it.data.length ≤ it.data.length ∧
      (data.length < 2 ^ 63 → it.currentPos + it.blockSize.val < 2 ^ 64) := by
  have collected : (new data b).collect = slices b.val data := collect_eq_slices (new data b)
  refine ⟨?_, ?_, ?_, ?_, ?_⟩
  · intro calls
    rw [exec_advance_isSome, collected, length_slices]
  · rw [collected, length_slices]
  · rw [collected, flatten_slices b.pos]
  · intro i chunk here
    rw [collected, getElem?_slices, Option.ite_none_right_eq_some] at here
    obtain ⟨inside, same⟩ := here
    obtain rfl := Option.some.inj same
    rw [lt_ceilDiv b.pos] at inside
    have size := length_slice b.val data i
    have positive := b.pos
    refine ⟨slice_eq_range b.val data i, by omega, by omega, ?_⟩
    intro notLast
    rw [lt_ceilDiv b.pos, Nat.succ_mul] at notLast
    omega
  · intro it reached inside
    obtain ⟨rfl, rfl, -⟩ := reach_currentPos reached
    have small := it.blockSize.u32
    refine ⟨by omega, Nat.min_le_right _ _, ?_⟩
    intro capacity
    omega

end BlockIterator

/-- A file read into a `Vec<u8>`, which holds at most `isize::MAX` bytes. -/
structure DataFile where
  buffer : Bytes
  capacity : buffer.length < 2 ^ 63

namespace DataFile

def chunkIter (self : DataFile) (blockSize : BlockSize) : BlockIterator :=
  .new self.buffer blockSize

/-- The blocks of the file, in the order in which every client sends them. -/
def blocks (self : DataFile) (blockSize : BlockSize) : List Bytes :=
  (self.chunkIter blockSize).collect

theorem blocks_eq_slices (file : DataFile) (b : BlockSize) :
    file.blocks b = slices b.val file.buffer :=
  BlockIterator.collect_eq_slices (file.chunkIter b)

theorem length_blocks (file : DataFile) (b : BlockSize) :
    (file.blocks b).length = file.buffer.length ⌈/⌉ b.val := by
  rw [blocks_eq_slices, length_slices]

theorem block_mem {file : DataFile} {b : BlockSize} {chunk : Bytes}
    (member : chunk ∈ file.blocks b) : chunk ≠ [] ∧ chunk.length ≤ b.val := by
  rw [blocks_eq_slices] at member
  exact slice_mem b.pos member

theorem block_mem_le {file : DataFile} {b : BlockSize} {chunk : Bytes}
    (member : chunk ∈ file.blocks b) : chunk.length ≤ min b.val file.buffer.length := by
  have size := (block_mem member).2
  rw [blocks_eq_slices] at member
  exact Nat.le_min.mpr ⟨size, slice_mem_le b.pos member⟩

/-- The first block is as long as a block of the file can be. -/
theorem blocks_of_ne_nil {file : DataFile} (b : BlockSize) (full : file.buffer ≠ []) :
    ∃ later, file.blocks b = file.buffer.take b.val :: later := by
  rw [blocks_eq_slices, slices_of_ne_nil b.pos full]
  exact ⟨_, rfl⟩

theorem sum_length_blocks (file : DataFile) (b : BlockSize) :
    ((file.blocks b).map List.length).sum = file.buffer.length := by
  rw [blocks_eq_slices, sum_length_slices b.pos]

/-- There are never more blocks than a sequence number can tell apart. -/
theorem length_blocks_lt (file : DataFile) (b : BlockSize) :
    (file.blocks b).length < 2 ^ 63 := by
  have each : ∀ chunk ∈ file.blocks b, 1 ≤ chunk.length := by
    intro chunk member
    exact List.length_pos_of_ne_nil (block_mem member).1
  have counted : (file.blocks b).length ≤ ((file.blocks b).map List.length).sum := by
    simpa only [List.length_map] using
      List.length_le_sum_of_one_le _ (List.forall_mem_map.mpr each)
  have capacity := file.capacity
  rw [sum_length_blocks] at counted
  omega

end DataFile

end PcdLab.Client.File
