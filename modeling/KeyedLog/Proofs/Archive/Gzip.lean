import KeyedLog.Archive
import Mathlib.Algebra.Group.Nat.Defs
import Mathlib.Data.List.Basic

/-!
Archives can be read back: whatever content was packed is what unpacking gives.
-/

namespace KeyedLog.Gzip

theorem length_littleEndian (count n : Nat) : (littleEndian count n).length = count := by
  induction count generalizing n with
  | zero => rfl
  | succ count ih => simp [littleEndian, ih]

theorem ofLittleEndian_littleEndian {count n : Nat} (fits : n < 256 ^ count) :
    ofLittleEndian (littleEndian count n) = n := by
  induction count generalizing n with
  | zero =>
      have zero : n = 0 := by simpa using fits
      simp [littleEndian, ofLittleEndian, zero]
  | succ count ih =>
      have quotient : n / 256 < 256 ^ count := by
        rw [Nat.div_lt_iff_lt_mul (by decide)]
        simpa [Nat.pow_succ] using fits
      simp only [littleEndian, ofLittleEndian, ih quotient, UInt8.toNat_ofNat']
      omega

theorem decodeBlocks_block (fuel : Nat) (seen : List Bytes) (final : Bool) {body : Bytes} (tail : Bytes)
    (small : body.length ≤ maxBlock) :
    decodeBlocks (fuel + 1) seen (block final body ++ tail) =
      if final then some ((body :: seen).reverse.flatten, tail) else decodeBlocks fuel (body :: seen) tail := by
  have bound : maxBlock = 65535 := rfl
  have length : ofLittleEndian (littleEndian 2 body.length) = body.length :=
    ofLittleEndian_littleEndian (by omega)
  have complement : ofLittleEndian (littleEndian 2 (maxBlock - body.length)) = maxBlock - body.length :=
    ofLittleEndian_littleEndian (by omega)
  have first := length_littleEndian 2 body.length
  have second := length_littleEndian 2 (maxBlock - body.length)
  have start : (littleEndian 2 body.length ++ (littleEndian 2 (maxBlock - body.length) ++ (body ++ tail))).drop 4 =
      body ++ tail := by
    rw [List.drop_append, List.drop_append, first, second, List.drop_of_length_le (by omega),
      List.drop_of_length_le (by omega)]
    rfl
  have sum : maxBlock - body.length + body.length = maxBlock := by omega
  cases final with
  | true => simp [block, decodeBlocks, first, second, length, complement, start, sum]
  | false =>
      have long : ¬ body.length + tail.length < body.length := by omega
      simp [block, decodeBlocks, first, second, length, complement, start, sum, long]

theorem decodeBlocks_blocks {count fuel : Nat} (seen : List Bytes) {bytes : Bytes} (tail : Bytes)
    (enough : bytes.length / maxBlock ≤ count) (patient : count < fuel) :
    decodeBlocks fuel seen (blocks count bytes ++ tail) = some (seen.reverse.flatten ++ bytes, tail) := by
  have bound : maxBlock = 65535 := rfl
  -- Each block but the last is full, so that a block less is needed for what is behind it.
  induction count generalizing fuel seen bytes with
  | zero =>
      obtain ⟨fuel, rfl⟩ := Nat.exists_eq_succ_of_ne_zero (Nat.ne_of_gt patient)
      have small : bytes.length ≤ maxBlock := by
        rw [bound] at enough ⊢
        omega
      rw [blocks, decodeBlocks_block fuel seen true tail small]
      simp
  | succ count ih =>
      obtain ⟨fuel, rfl⟩ := Nat.exists_eq_succ_of_ne_zero (Nat.ne_of_gt (Nat.lt_of_le_of_lt (Nat.zero_le _) patient))
      by_cases small : bytes.length ≤ maxBlock
      · rw [blocks, if_pos small, decodeBlocks_block fuel seen true tail small]
        simp
      · rw [blocks, if_neg small, List.append_assoc,
          decodeBlocks_block fuel seen false _ (by rw [List.length_take]; omega)]
        simp only [Bool.false_eq_true, if_false]
        have less : (bytes.drop maxBlock).length / maxBlock ≤ count := by
          rw [List.length_drop, bound]
          rw [bound] at enough small
          omega
        rw [ih (bytes.take maxBlock :: seen) less (by omega)]
        simp

theorem length_block (final : Bool) (bytes : Bytes) : (block final bytes).length = bytes.length + 5 := by
  simp [block, length_littleEndian]
  omega

theorem length_blocks (count : Nat) (bytes : Bytes) : bytes.length ≤ (blocks count bytes).length := by
  induction count generalizing bytes with
  | zero =>
      rw [blocks, length_block]
      omega
  | succ count ih =>
      rw [blocks]
      split
      · rw [length_block]
        omega
      · have rest := ih (bytes.drop maxBlock)
        simp only [List.length_append, length_block, List.length_take, List.length_drop] at rest ⊢
        omega

theorem decode?_encode (content : Bytes) : decode? (encode content) = some content := by
  have bound : maxBlock = 65535 := rfl
  have file : encode content = header ++ (blocks (content.length / maxBlock) content ++
      (littleEndian 4 (checksum content).toNat ++ littleEndian 4 content.length)) := by
    simp [encode]
  have long := length_blocks (content.length / maxBlock) content
  have marked : header.isPrefixOf (encode content) = true := by
    rw [file]
    exact List.isPrefixOf_iff_prefix.mpr (List.prefix_append ..)
  have patient : content.length / maxBlock < (encode content).length := by
    have ten : header.length = 10 := rfl
    rw [file, List.length_append, List.length_append, ten]
    rw [bound] at long ⊢
    omega
  have unpacked := decodeBlocks_blocks [] (littleEndian 4 (checksum content).toNat ++ littleEndian 4 content.length)
    (Nat.le_refl _) patient
  have body : (encode content).drop header.length = blocks (content.length / maxBlock) content ++
      (littleEndian 4 (checksum content).toNat ++ littleEndian 4 content.length) := by
    rw [file, List.drop_left]
  simp [decode?, marked, body, unpacked]

end KeyedLog.Gzip
