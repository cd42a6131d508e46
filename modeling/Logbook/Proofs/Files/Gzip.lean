import Logbook.Files.Gzip
import Mathlib.Algebra.Group.Nat.Defs

/-! # What has been compressed can be read back

    A block tells its own length, so it is read to its end and what follows it is left.
    The blocks of a stream are read one after the other up to the one that is marked as
    the last.
-/

namespace Logbook.Gzip

/-! ## Numbers -/

theorem length_littleEndian (k n : Nat) : (littleEndian k n).length = k := by
  induction k generalizing n with
  | zero => rfl
  | succ k ih => rw [littleEndian, List.length_cons, ih]

/-- A number that has room in so many bytes is read back from them. -/
theorem number_littleEndian {k n : Nat} (h : n < 256 ^ k) : number (littleEndian k n) = n := by
  induction k generalizing n with
  | zero =>
    rw [Nat.pow_zero] at h
    show 0 = n
    omega
  | succ k ih =>
    have hrest : n / 256 < 256 ^ k := by
      rw [Nat.pow_succ] at h
      omega
    have hbyte : n.toUInt8.toNat = n % 256 := UInt8.toNat_ofNat'
    rw [littleEndian, number, ih hrest, hbyte]
    omega

/-! ## Blocks -/

/-- **A block** is read as far as it goes: it is the last one, or the next ones are read
    behind it. -/
theorem readBlocks_block (more : Nat) (last : Bool) {bytes : List UInt8}
    (h : bytes.length ≤ blockLimit) (rest : List UInt8) :
    readBlocks more (block last bytes ++ rest) =
      if last then some (bytes, rest)
      else
        match more with
        | 0 => none
        | more + 1 => (readBlocks more rest).map fun (next, rest') => (bytes ++ next, rest') := by
  -- The length of a block fits in the two bytes that tell it.
  have hsmall : ∀ {n : Nat}, n ≤ blockLimit → number (littleEndian 2 n) = n := by
    intro n hn
    refine number_littleEndian ?_
    unfold blockLimit at hn
    omega
  have hpair : ∀ n, littleEndian 2 n = [n.toUInt8, (n / 256).toUInt8] := fun n => rfl
  have hlength := hsmall h
  have hturned := hsmall (Nat.sub_le blockLimit bytes.length)
  rw [hpair] at hlength hturned
  rw [block, hpair, hpair]
  simp only [List.cons_append, List.nil_append]
  rw [readBlocks.eq_def]
  have hfits : ¬ (bytes ++ rest).length < bytes.length := by
    rw [List.length_append]
    omega
  simp only [hlength, hturned, Nat.sub_add_cancel h, hfits, ne_eq, not_true_eq_false, decide_false,
    Bool.or_self, Bool.false_eq_true, if_false, List.take_left, List.drop_left]
  cases last with
  | true => rfl
  | false => cases more <;> rfl

/-- **Blocks** that have room for their bytes are read back, and what follows the last one
    is left. -/
theorem readBlocks_blocks {n more : Nat} {bytes : List UInt8}
    (hroom : bytes.length ≤ (n + 1) * blockLimit) (hmore : n ≤ more) (rest : List UInt8) :
    readBlocks more (blocks n bytes ++ rest) = some (bytes, rest) := by
  induction n generalizing more bytes with
  | zero =>
    rw [blocks, readBlocks_block more true (by omega), if_pos rfl]
  | succ n ih =>
    rw [blocks]
    split
    · next hone => rw [readBlocks_block more true hone, if_pos rfl]
    · next hlong =>
      have htake : (bytes.take blockLimit).length ≤ blockLimit := List.length_take_le _ _
      have hdrop : (bytes.drop blockLimit).length ≤ (n + 1) * blockLimit := by
        rw [List.length_drop]
        unfold blockLimit at *
        omega
      -- The reader's bound has one block to spare for the one that is not last.
      obtain ⟨more, rfl⟩ : ∃ m, more = m + 1 := ⟨more - 1, by omega⟩
      rw [List.append_assoc, readBlocks_block (more + 1) false htake]
      simp only [Bool.false_eq_true, if_false]
      rw [ih hdrop (by omega)]
      simp

/-- No block is shorter than its bytes. -/
theorem length_le_blocks (n : Nat) (bytes : List UInt8) :
    bytes.length ≤ (blocks n bytes).length := by
  have hblock : ∀ (last : Bool) (bytes : List UInt8), bytes.length ≤ (block last bytes).length := by
    intro last bytes
    rw [block, List.length_append]
    omega
  induction n generalizing bytes with
  | zero => exact hblock true bytes
  | succ n ih =>
    rw [blocks]
    split
    · exact hblock true bytes
    · have hrest := ih (bytes.drop blockLimit)
      have hfirst := hblock false (bytes.take blockLimit)
      rw [List.length_drop] at hrest
      rw [List.length_take] at hfirst
      rw [List.length_append]
      omega

/-! ## Streams -/

/-- **Round trip**: decompression undoes compression. -/
theorem decompress?_compress (bytes : List UInt8) : decompress? (compress bytes) = some bytes := by
  have hcut : ∀ rest, (header ++ rest).take header.length = header ∧
      (header ++ rest).drop header.length = rest := fun rest => ⟨List.take_left, List.drop_left⟩
  have hroom : bytes.length ≤ (bytes.length / blockLimit + 1) * blockLimit := by
    unfold blockLimit
    omega
  -- The reader is bounded by the length of what it reads, which is room enough.
  have hmore : bytes.length / blockLimit ≤ (compress bytes).length := by
    have hlong := length_le_blocks (bytes.length / blockLimit) bytes
    have hless := Nat.div_le_self bytes.length blockLimit
    simp only [compress, List.length_append]
    omega
  have hread := readBlocks_blocks hroom hmore
    (littleEndian 4 (checksum bytes).toNat ++ littleEndian 4 bytes.length)
  have htrailer : (littleEndian 4 (checksum bytes).toNat ++ littleEndian 4 bytes.length).take 8 =
      littleEndian 4 (checksum bytes).toNat ++ littleEndian 4 bytes.length := by
    refine List.take_of_length_le (Nat.le_of_eq ?_)
    rw [List.length_append, length_littleEndian, length_littleEndian]
  unfold decompress?
  rw [show compress bytes = header ++ (blocks (bytes.length / blockLimit) bytes ++
    (littleEndian 4 (checksum bytes).toNat ++ littleEndian 4 bytes.length)) by
      simp only [compress, List.append_assoc]] at hread ⊢
  rw [(hcut _).1, if_neg (by simp), (hcut _).2, hread]
  simp only [htrailer, if_true]

end Logbook.Gzip
