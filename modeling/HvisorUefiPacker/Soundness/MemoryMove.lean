import HvisorUefiPacker.Core

/-! # memcpy2 as a move

`memcpy2` always copies upwards, so it moves the original bytes of the source
unless its destination starts strictly inside the source; `RtCopyMem` chooses its
direction and moves them in any case.

* `Moved` is what `memmove` promises.
* `memcpy2_is_memmove`: where the destination does not start inside the source,
  `memcpy2` keeps that promise and leaves what `CopyMem` leaves.
-/

namespace HvisorUefiPacker

open Interaction ByteMemory

/-- The target holds the original bytes of the source, and nothing else has changed. -/
structure Moved (move : Move 64) (before after : Mem) : Prop where
  copied : ∀ i < move.length,
    after (move.dest + BitVec.ofNat 64 i) = before (move.src + BitVec.ofNat 64 i)
  unchanged : ∀ address ∉ move.target, after address = before address

theorem Moved.apply {move : Move 64} (fits : move.Fits) (memory : Mem) :
    Moved move memory (move.apply memory) where
  copied i inside := by
    have offset : move.dest + BitVec.ofNat 64 i - move.dest = BitVec.ofNat 64 i :=
      add_sub_cancel_left _ _
    have destFits := fits.dest
    have reached : move.dest + BitVec.ofNat 64 i ∈ move.target := by
      rw [Move.target, mem_range_iff_sub fits.dest, offset, BitVec.toNat_ofNat,
        Nat.mod_eq_of_lt (by omega)]
      exact inside
    rw [Move.apply_inside fits reached, offset]
  unchanged _ outside := Move.apply_outside fits outside

/-- A length that is not negative is the same as a `UINTN`. -/
theorem toNat_signExtend {n : Int32} (nonneg : 0 ≤ n.toInt) :
    (n.signExtend 64).toNat = n.toInt.toNat := by
  have extended : (n.signExtend 64).toInt = n.toInt := BitVec.toInt_signExtend_of_le (by omega)
  have positive : (n.signExtend 64).msb = false := by
    rw [BitVec.msb_eq_toInt, extended]
    exact decide_eq_false (not_lt.mpr nonneg)
  rw [← extended, BitVec.toNat_toInt_of_msb _ positive]

variable {σ : Type}

/-- Where the destination does not start strictly inside the source, `memcpy2` is
    `memmove`, and so leaves the same memory as `CopyMem`. -/
theorem memcpy2_is_memmove (firmware : Firmware σ) (dest src : UINTN) (n : Int32)
    (world : World σ) :
    (0 ≤ n.toInt → (⟨dest, src, n.toInt.toNat⟩ : Move 64).Fits →
      ¬ (src.toNat < dest.toNat ∧ dest.toNat < src.toNat + n.toInt.toNat) →
      wp (machine firmware) (memcpy2 dest src n)
        (fun _ after =>
          Moved ⟨dest, src, n.toInt.toNat⟩ world.memory after.memory ∧
            (dest ≠ 0 → src ≠ 0 →
              wp (machine firmware) (copyMem dest src (n.signExtend 64))
                (fun _ copied => copied.memory = after.memory) world)) world) ∧
      (n.toInt < 0 →
        wp (machine firmware) (memcpy2 dest src n) (fun _ after => after = world) world) := by
  constructor
  · intro nonneg fits outside
    have moves : replay world.memory (copyUpLog world.memory dest src n.toInt.toNat) =
        (⟨dest, src, n.toInt.toNat⟩ : Move 64).apply world.memory := by
      rw [replay_copyUpLog]
      exact Move.copyUp_eq_apply_of_outside fits outside
    rw [wp_memcpy2, World.storeAll_memory, moves]
    refine ⟨.apply fits world.memory, fun destValid srcValid => ?_⟩
    have length := toNat_signExtend nonneg
    rw [wp_copyMem, World.storeAll_memory, replay_copyLog destValid srcValid]
    · rw [length]
      rfl
    · rw [length]
      exact fits.dest
    · rw [length]
      exact fits.src
  · intro negative
    rw [wp_memcpy2, Int.toNat_of_nonpos negative.le]
    exact World.storeAll_nil world

/-- Six bytes at 0x1000, numbered from 1. -/
def numberedMemory : Mem := sparseMemory 0x1000 [(0, 1), (1, 2), (2, 3), (3, 4), (4, 5), (5, 6)]

/-- Four bytes moved down by two, and none for a negative length. -/
theorem memcpy2_is_memmove_down :
    wp (machine (plainFirmware 0 efiSuccess)) (memcpy2 0x1000 0x1002 4)
        (fun _ after => readBytes after.memory 0x1000 4 = [3, 4, 5, 6])
        (World.initial numberedMemory ()) ∧
      wp (machine (plainFirmware 0 efiSuccess)) (memcpy2 0x1000 0x1002 (-1))
        (fun _ after => after.memory = numberedMemory) (World.initial numberedMemory ()) := by
  constructor
  · apply wp_mono ((memcpy2_is_memmove (plainFirmware 0 efiSuccess) 0x1000 0x1002 4 _).1
      (by decide) (by decide) (by decide))
    rintro _ after ⟨moved, _⟩
    have cells : readBytes after.memory 0x1000 4 = readBytes numberedMemory 0x1002 4 := by
      apply List.map_congr_left
      exact fun i inside => moved.copied i (List.mem_range.mp inside)
    rw [cells]
    decide
  · apply wp_mono ((memcpy2_is_memmove (plainFirmware 0 efiSuccess) 0x1000 0x1002 (-1) _).2
      (by decide))
    rintro _ after rfl
    rfl

end HvisorUefiPacker
