import HvisorUefiPacker.Soundness.Startup

/-! # What the firmware gets from an image

The runs of `_start` on a whole image: the relocations of the first half of
`Relocation` behind the calls of `Startup`.
-/

namespace HvisorUefiPacker.GnuEfi

open ByteMemory Steps StateTransition

variable {loader : Loader} {cpu : Cpu}

/-- The firmware has loaded the image, on AArch64 to a page boundary, and calls its `_start`,
    with a stack elsewhere. -/
structure Called (loader : Loader) (image : SharedObject loader.arch) (cpu : Cpu) : Prop where
  placed : Placed loader cpu
  aligned : loader.arch = .aarch64 → loader.imageBase &&& 0xfff = 0
  loaded : image.Loaded loader.imageBase cpu.memory
  dynamic : loader.dynamic = loader.imageBase + image.dyn
  stack : ∀ address ∈ frameCells loader.arch cpu, address - loader.imageBase ∉ image.cells

theorem saved_outside {address : UINTN} (outside : address ∉ frameCells loader.arch cpu) :
    saved loader.arch cpu address = cpu.memory address := by
  apply patchAll_outside wide64
  intro patch member touched
  obtain ⟨word, isWord, rfl⟩ := List.mem_map.mp member
  have bound := frameWords_inside isWord
  have inside : address ∈ block (frameBase loader.arch cpu) (frameSize loader.arch) := by
    rw [mem_block]
    have near : (address - frameBase loader.arch cpu - word.1).toNat < 8 := by
      rw [sub_sub]
      exact touched
    rw [BitVec.toNat_sub] at near
    have small := (address - frameBase loader.arch cpu).isLt
    omega
  exact outside inside

theorem Called.loaded_saved {image : SharedObject loader.arch} (called : Called loader image cpu) :
    image.Loaded loader.imageBase (saved loader.arch cpu) where
  same := by
    intro offset inside
    have outside : loader.imageBase + offset ∉ frameCells loader.arch cpu := by
      intro inFrame
      have apart := called.stack _ inFrame
      rw [add_sub_cancel_left] at apart
      exact apart inside
    exact (saved_outside outside).trans (called.loaded.same inside)
  table := called.loaded.table

theorem Called.passed {image : SharedObject loader.arch} (called : Called loader image cpu) :
    loader.passed = loader.imageBase + image.dyn :=
  (loader.passed_of_aligned called.aligned).trans called.dynamic

/-- The image of 256 bytes, with `_start` and an `efi_main` that succeeds behind its words. -/
def oneLoader (arch : Arch) : Loader where
  arch := arch
  place index := 0x1080 + 4 * BitVec.ofNat 64 index
  imageBase := 0x1000
  dynamic := 0x1000
  efiMain _ _ memory := some (efiSuccess, memory)
  scratch _ _ := 0

/-- A call of `_start` with the stack at 0x8000. -/
def firmwareCall (memory : Mem) : Cpu where
  a0 := 1
  a1 := 2
  a2 := 0
  a3 := 0
  fp := 0
  ra := 0x4000
  sp := 0x8000
  memory := memory

theorem placed_pair (arch : Arch) (memory : Mem) : Placed (oneLoader arch) (firmwareCall memory) where
  distinct := by
    cases arch with
    | aarch64 => decide
    | loongarch64 => decide
    | riscv64 => decide
  outside := by
    have elsewhere : ∀ index < 16, (0x1080 + 4 * BitVec.ofNat 64 index : UINTN) ≠ 0x4000 := by
      decide
    have length : (oneLoader arch).code.length ≤ 16 := by
      cases arch with
      | aarch64 => decide
      | loongarch64 => decide
      | riscv64 => decide
    exact fun index inside => elsewhere index (inside.trans_le length)

theorem called_pair (arch : Arch) : Called (oneLoader arch) (twoRelocations arch true)
    (firmwareCall (pairAt arch true 0x1000)) where
  placed := placed_pair arch _
  aligned _ := by
    show (0x1000 : UINTN) &&& 0xfff = 0
    decide
  loaded := by
    have notNull : (64 + 0x1000 : UINTN) ≠ 0 := by decide
    exact pair_loaded arch true notNull
  dynamic := rfl
  stack := by
    have large : frameSize arch ≤ 32 := by
      cases arch with
      | aarch64 => decide
      | loongarch64 => decide
      | riscv64 => decide
    have high : 0x7fe0 ≤ (frameBase arch (firmwareCall (pairAt arch true 0x1000))).toNat ∧
        (frameBase arch (firmwareCall (pairAt arch true 0x1000))).toNat < 0x8000 := by
      cases arch with
      | aarch64 => decide
      | loongarch64 => decide
      | riscv64 => decide
    intro address inFrame inImage
    have inBlock : address ∈ block (frameBase arch (firmwareCall (pairAt arch true 0x1000)))
      (frameSize arch) := inFrame
    have near : (address - 0x1000).toNat < 256 := inImage
    rw [mem_block, BitVec.toNat_sub] at inBlock
    rw [BitVec.toNat_sub] at near
    have bound := address.isLt
    simp at near
    omega

theorem linkable_pair (arch : Arch) : (twoRelocations arch true).Linkable := by
  cases arch with
  | aarch64 => exact onlyRelative_pair .aarch64
  | loongarch64 =>
    refine ⟨onlyRelative_pair .loongarch64, (askedApart_pair .loongarch64 true).apart, ?_⟩
    rw [SharedObject.relocations, relas_pair]
    decide +kernel
  | riscv64 => exact relative_pair .riscv64

theorem start_hangs (loader : Loader) (cpu : Cpu)
    (endless : Forever (relocateStep loader.arch loader.imageBase)
      (relocate loader.passed (saved loader.arch cpu))) :
    Forever loader.startStep (.running 0 cpu) := by
  obtain ⟨called, reaches, base, -, -⟩ := start_calls_relocate loader cpu
  rw [← base] at endless
  exact forever_of_reaches reaches ((relocate_embeds loader called).forever endless)

/-- Where `_relocate` fails, on AArch64 and LoongArch the firmware gets `EFI_LOAD_ERROR` and
    its registers, and memory has changed in the frame only.  On RISC-V the branch skips the
    load of `ra`: `_start` returns to its own branch, and the stack pointer goes up by 24,
    again and again. -/
theorem start_fails (placed : Placed loader cpu) {status : EfiStatus} {after : Mem}
    (returned : .returned status after ∈
      eval (relocateStep loader.arch loader.imageBase)
        (relocate loader.passed (saved loader.arch cpu)))
    (failed : status ≠ efiSuccess) :
    (loader.arch ≠ .riscv64 →
      Halts loader.startStep (HandsBack cpu efiLoadError (saved loader.arch cpu))
        (.running 0 cpu)) ∧
      (loader.arch = .riscv64 →
        Forever loader.startStep (.running 0 cpu) ∧
          ∀ rounds, ∃ later, Reaches loader.startStep (.running 0 cpu) (.running 12 later) ∧
            later.get .sp = cpu.get .sp + -24 + 24 * BitVec.ofNat 64 rounds ∧
            later.memory = saved loader.arch cpu) := by
  obtain ⟨rfl, rfl⟩ := relocate_error returned failed
  have kept : Set.EqOn (saved loader.arch cpu) (saved loader.arch cpu)
      (frameCells loader.arch cpu) := Set.eqOn_refl _ _
  constructor
  · intro notRiscv
    exact failure_hands_back placed notRiscv returned kept failed
  · intro riscv
    obtain ⟨current, reaches, result, ra, memory, inFrame⟩ :=
      failed_branch placed returned kept failed
    have spinning : Spinning loader efiLoadError current := ⟨result, ra⟩
    have base : current.get .sp = cpu.get .sp + -24 := by
      rw [inFrame.sp, riscv, frameBase]
    have label : failLabel loader.arch = 12 := by rw [riscv, failLabel]
    constructor
    · exact forever_of_reaches reaches (spin_forever placed riscv failed spinning)
    · intro rounds
      obtain ⟨later, rises, sp, same, -⟩ := spin_rounds placed riscv failed spinning rounds
      rw [label] at reaches rises
      rw [base] at sp
      exact ⟨later, reaches.trans rises, sp, same.trans memory⟩

theorem start_fails_unpaired :
    Halts (oneLoader .aarch64).startStep
        (HandsBack (firmwareCall (unpaired 0x1000)) efiLoadError
          (saved .aarch64 (firmwareCall (unpaired 0x1000))))
        (.running 0 (firmwareCall (unpaired 0x1000))) ∧
      Forever (oneLoader .riscv64).startStep (.running 0 (firmwareCall (unpaired 0x1000))) := by
  have failed : efiLoadError ≠ efiSuccess := by decide
  have returned : ∀ arch, Dynamic (saved arch (firmwareCall (unpaired 0x1000))) 0x1000
      [⟨dtRela, 64⟩] → .returned efiLoadError (saved arch (firmwareCall (unpaired 0x1000))) ∈
        eval (relocateStep arch 0x1000)
          (relocate 0x1000 (saved arch (firmwareCall (unpaired 0x1000)))) := by
    intro arch dynamic
    obtain ⟨final, result, rfl⟩ := @relocate_fails 0x1000 _ _ _ arch dynamic (by decide)
    exact result
  constructor
  · exact (start_fails (placed_pair .aarch64 _) (returned .aarch64 (by decide +kernel)) failed).1
      (by decide)
  · exact ((start_fails (placed_pair .riscv64 _) (returned .riscv64 (by decide +kernel)) failed).2
      rfl).1

end HvisorUefiPacker.GnuEfi
