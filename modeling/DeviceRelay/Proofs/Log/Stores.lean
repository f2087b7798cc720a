import DeviceRelay.Log.Source
import Mathlib.Algebra.Group.Nat.Defs

/-!
# The two stores of a log

A log in memory finds the end of a range by a sum and cuts it off at the end of the log. A log in a
file finds the length of the range by a difference, and no difference is below zero, since a read
begins within the log. The two give the same chunk of the same bytes, unless the sum is beyond 64
bits: then the read of the log in memory panics.

* `LogStart.resolve_le`: a read begins within the log.
* `LogRange.ofMemory_eq`: what is read of a log in memory is what is read of a file, or a panic.
* `LogSource.stores_agree_iff`: the reads for which it does not matter where the log is kept.
-/

namespace DeviceRelay

/-! ## Words -/

theorem toNat_word {n : Nat} (h : n < 2 ^ 64) : (UInt64.ofNat n).toNat = n := by
  rw [UInt64.toNat_ofNat', Nat.mod_eq_of_lt h]

theorem toNat_min_word (a b : UInt64) : (min a b).toNat = min a.toNat b.toNat := by
  have hmin : min a b = if a ≤ b then a else b := rfl
  rw [hmin]
  split
  · rename_i hle
    exact (Nat.min_eq_left (UInt64.le_iff_toNat_le.mp hle)).symm
  · rename_i hgt
    exact (Nat.min_eq_right (Nat.le_of_not_le fun h => hgt (UInt64.le_iff_toNat_le.mpr h))).symm

/-! ## Ranges -/

namespace LogStart

theorem toNat_resolve_at (offset size : UInt64) :
    ((LogStart.at offset).resolve size).toNat = min offset.toNat size.toNat :=
  toNat_min_word offset size

theorem toNat_resolve_tail (bytes size : UInt64) :
    ((LogStart.tail bytes).resolve size).toNat = size.toNat - bytes.toNat := by
  unfold resolve
  dsimp only
  split
  · rename_i hle
    exact UInt64.toNat_sub_of_le _ _ hle
  · rename_i hgt
    rw [UInt64.le_iff_toNat_le] at hgt
    exact (Nat.sub_eq_zero_of_le (Nat.le_of_not_le hgt)).symm

theorem resolve_le (start : LogStart) (size : UInt64) :
    (start.resolve size).toNat ≤ size.toNat := by
  cases start with
  | «at» offset =>
    rw [toNat_resolve_at]
    exact Nat.min_le_right _ _
  | tail bytes =>
    rw [toNat_resolve_tail]
    exact Nat.sub_le _ _

/-- Where a read begins is within the log, so a read at that place begins there too. -/
theorem resolve_resolve (start : LogStart) (size : UInt64) :
    (LogStart.at (start.resolve size)).resolve size = start.resolve size := by
  rw [← UInt64.toNat_inj, toNat_resolve_at]
  exact Nat.min_eq_left (start.resolve_le size)

end LogStart

namespace LogRange

/-- The end of a range, where the sum is a word. -/
private theorem toNat_stop {offset maxBytes : UInt64}
    (h : offset.toNat + maxBytes.toNat < UInt64.size) (size : UInt64) :
    (min (offset + maxBytes) size).toNat = min (offset.toNat + maxBytes.toNat) size.toNat := by
  rw [toNat_min_word, UInt64.toNat_add, Nat.mod_eq_of_lt h]

/-- The length of a range that begins within the log. -/
theorem toNat_want {offset size : UInt64} (h : offset.toNat ≤ size.toNat) (maxBytes : UInt64) :
    (min (size - offset) maxBytes).toNat = min (size.toNat - offset.toNat) maxBytes.toNat := by
  rw [toNat_min_word, UInt64.toNat_sub_of_le _ _ (UInt64.le_iff_toNat_le.mpr h)]

/-- **What is read of a log in memory** is what is read of a file with the same bytes. Where the end
of the range is beyond 64 bits, the read panics. -/
theorem ofMemory_eq (bytes : List UInt8) (start : LogStart) (maxBytes : UInt64) :
    ofMemory bytes start maxBytes =
      if UInt64.size ≤ (start.resolve (logSize bytes)).toNat + maxBytes.toNat then
        .error .addOverflow
      else .ok (ofFile bytes start maxBytes) := by
  have hoffset := start.resolve_le (logSize bytes)
  unfold ofMemory ofFile
  dsimp only
  generalize start.resolve (logSize bytes) = offset at *
  split
  · rfl
  · rename_i hfits
    -- The distance from the offset to the end is the length.
    have hlength : min (offset.toNat + maxBytes.toNat) (logSize bytes).toNat - offset.toNat =
        min ((logSize bytes).toNat - offset.toNat) maxBytes.toNat := by
      omega
    rw [toNat_stop (Nat.not_le.mp hfits), toNat_want hoffset, List.drop_take, hlength]

/-- The chunk of a file ends where its bytes end, within the log: no sum in it is beyond 64 bits. -/
theorem next_ofFile (bytes : List UInt8) (start : LogStart) (maxBytes : UInt64) :
    let chunk := ofFile bytes start maxBytes
    chunk.next.toNat = chunk.offset.toNat + chunk.data.length ∧
      chunk.next.toNat ≤ chunk.size.toNat := by
  have hoffset := start.resolve_le (logSize bytes)
  unfold ofFile LogChunk.new
  dsimp only
  generalize start.resolve (logSize bytes) = offset at *
  have hlength : ((bytes.drop offset.toNat).take
      (min (logSize bytes - offset) maxBytes).toNat).length ≤
        (logSize bytes).toNat - offset.toNat := by
    rw [toNat_want hoffset, List.length_take]
    omega
  generalize (bytes.drop offset.toNat).take _ = data at *
  have hsize := (logSize bytes).toNat_lt
  rw [UInt64.toNat_add, toNat_word (by omega), Nat.mod_eq_of_lt (by omega)]
  omega

theorem length_ofFile_le (bytes : List UInt8) (start : LogStart) (maxBytes : UInt64) :
    (ofFile bytes start maxBytes).data.length ≤ maxBytes.toNat := by
  unfold ofFile LogChunk.new
  dsimp only
  rw [List.length_take, toNat_min_word]
  omega

end LogRange

/-! ## Stores -/

namespace LogSource

/-- No read gives more bytes than there is room for. -/
theorem length_read_le {l : LogSource} {start : LogStart} {maxBytes : UInt64} {chunk : LogChunk}
    (h : l.read start maxBytes = .ok chunk) : chunk.data.length ≤ maxBytes.toNat := by
  unfold read at h
  split at h
  · rename_i bytes _
    rw [LogRange.ofMemory_eq] at h
    split at h
    · rename_i c hc
      split at hc
      · cases hc
      · cases hc
        cases h
        exact LogRange.length_ofFile_le _ _ _
    · cases h
  · cases h
    exact LogRange.length_ofFile_le _ _ _
  · cases h
  · dsimp only at h
    split at h
    · cases h
      exact Nat.zero_le _
    · cases h
  · cases h

/-- **Where a log is kept** does not matter for a read exactly where the end of the range is a word.
A file has a chunk for every read, and its end is not beyond the log; the read of a log in memory
panics where the end of the range is beyond 64 bits. -/
theorem stores_agree_iff (path path' : String) (bytes : List UInt8) (start : LogStart)
    (maxBytes : UInt64) :
    let memory := (LogSource.mk path (.memory bytes)).read start maxBytes
    let file := (LogSource.mk path' (.file bytes)).read start maxBytes
    let fits := (start.resolve (logSize bytes)).toNat + maxBytes.toNat < UInt64.size
    (∃ chunk, file = .ok chunk ∧
      chunk.next.toNat = chunk.offset.toNat + chunk.data.length ∧
      chunk.next.toNat ≤ chunk.size.toNat) ∧
    (memory = file ↔ fits) ∧ (memory = .panicked .addOverflow ↔ ¬fits) := by
  intro memory file fits
  have hfile : file = .ok (LogRange.ofFile bytes start maxBytes) := rfl
  have hmemory : memory =
      if fits then .ok (LogRange.ofFile bytes start maxBytes) else .panicked .addOverflow := by
    unfold memory read
    dsimp only
    rw [LogRange.ofMemory_eq]
    by_cases h : fits
    · rw [if_pos h, if_neg (Nat.not_le.mpr h)]
    · rw [if_neg h, if_pos (Nat.not_lt.mp h)]
  refine ⟨⟨_, hfile, LogRange.next_ofFile bytes start maxBytes⟩, ?_⟩
  rw [hmemory, hfile]
  by_cases h : fits
  · simp [h]
  · simp [h]

/-- The last byte of a log, with room for as many bytes as can be: a file gives it, and the read
of a log in memory panics. -/
theorem tail_refused_in_memory :
    (LogSource.mk "memory" (.memory [97, 98])).read (.tail 1) 18446744073709551615 =
        .panicked .addOverflow ∧
      (LogSource.mk "log" (.file [97, 98])).read (.tail 1) 18446744073709551615 =
        .ok ⟨[98], 1, 2, 2, true⟩ :=
  ⟨rfl, rfl⟩

end LogSource

end DeviceRelay
