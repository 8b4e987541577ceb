import HvisorUefiPacker.Soundness.HandOff

/-! # The memory hvisor starts in

`composeMemory` clears regions on LoongArch, then copies the embedded binaries.

* `composed` says what it leaves: the clears, then the copies as moves.
* `wpSafe_composeMemory` is the refinement: the loops of `memset2` and `memcpy2`,
  which count in an `int`, leave that memory, wherever the firmware does not write
  in between.
* `composeMemory_composes` reads off what every address holds.
-/

namespace HvisorUefiPacker

open Interaction Interaction.Program ByteMemory

/-- A run of addresses, such as a region `arch_clear_memory_regions` clears. -/
structure Region where
  base : UINTN
  length : Nat

namespace Region

def addresses (region : Region) : Set UINTN := range region.base region.length

def Fits (region : Region) : Prop := region.base.toNat + region.length ≤ 2 ^ 64

instance (region : Region) : Decidable region.Fits := inferInstanceAs (Decidable (_ ≤ _))

instance (region : Region) (move : Move 64) : Decidable (Disjoint region.addresses move.source) :=
  inferInstanceAs (Decidable (Disjoint (range _ _) (range _ _)))

def clear (memory : Mem) (region : Region) : Mem :=
  writeBytes memory region.base (List.replicate region.length 0)

theorem clear_outside {memory : Mem} {region : Region} (fits : region.Fits) {address : UINTN}
    (outside : address ∉ region.addresses) : region.clear memory address = memory address := by
  apply writeBytes_outside
  · rw [List.length_replicate]
    exact fits
  · rwa [List.length_replicate]

theorem clear_inside {memory : Mem} {region : Region} (fits : region.Fits) {address : UINTN}
    (inside : address ∈ region.addresses) : region.clear memory address = 0 := by
  have bound : (address - region.base).toNat < region.length := (mem_range_iff_sub fits).mp inside
  have short : region.length ≤ 2 ^ 64 := by
    unfold Fits at fits
    omega
  rw [clear, writeBytes_apply _ _ _ (by rwa [List.length_replicate]), List.getElem?_replicate,
    if_pos bound]
  rfl

end Region

def clearRegions (memory : Mem) (regions : List Region) : Mem :=
  regions.foldl (fun current region => region.clear current) memory

@[simp] theorem clearRegions_nil (memory : Mem) : clearRegions memory [] = memory := rfl

@[simp] theorem clearRegions_cons (memory : Mem) (region : Region) (regions : List Region) :
    clearRegions memory (region :: regions) = clearRegions (region.clear memory) regions := rfl

theorem clearRegions_outside {memory : Mem} {regions : List Region} {address : UINTN}
    (fits : ∀ region ∈ regions, region.Fits)
    (outside : ∀ region ∈ regions, address ∉ region.addresses) :
    clearRegions memory regions address = memory address := by
  induction regions generalizing memory with
  | nil => rfl
  | cons region regions inductionHypothesis =>
    rw [clearRegions_cons, inductionHypothesis (fun other member => fits other (by simp [member]))
      (fun other member => outside other (by simp [member]))]
    exact Region.clear_outside (fits region (by simp)) (outside region (by simp))

/-- A zero stays a zero, and a cleared address becomes one. -/
theorem clearRegions_inside {memory : Mem} {regions : List Region} {address : UINTN}
    (fits : ∀ region ∈ regions, region.Fits)
    (inside : memory address = 0 ∨ ∃ region ∈ regions, address ∈ region.addresses) :
    clearRegions memory regions address = 0 := by
  induction regions generalizing memory with
  | nil =>
    obtain zero | ⟨_, member, _⟩ := inside
    · exact zero
    · cases member
  | cons region regions inductionHypothesis =>
    have regionFits := fits region (by simp)
    rw [clearRegions_cons]
    apply inductionHypothesis fun other member => fits other (by simp [member])
    by_cases here : address ∈ region.addresses
    · exact .inl (Region.clear_inside regionFits here)
    · obtain zero | ⟨other, member, covers⟩ := inside
      · left
        rw [Region.clear_outside regionFits here, zero]
      · right
        obtain rfl | later := List.mem_cons.mp member
        · exact absurd covers here
        · exact ⟨other, later, covers⟩

theorem clearRegions_eqOn {first second : Mem} {regions : List Region} {cells : Set UINTN}
    (fits : ∀ region ∈ regions, region.Fits) (agree : Set.EqOn first second cells) :
    Set.EqOn (clearRegions first regions) (clearRegions second regions) cells := by
  intro address inside
  by_cases cleared : ∃ region ∈ regions, address ∈ region.addresses
  · rw [clearRegions_inside fits (.inr cleared), clearRegions_inside fits (.inr cleared)]
  · have outside : ∀ region ∈ regions, address ∉ region.addresses :=
      fun region member covers => cleared ⟨region, member, covers⟩
    rw [clearRegions_outside fits outside, clearRegions_outside fits outside]
    exact agree inside

namespace Config

variable (config : Config)

/-- The regions the architecture hook clears. -/
def cleared : List Region :=
  match config.arch with
  | .loongarch64 =>
    [⟨config.hvisorBinLoadAddr, 0x1000000⟩, ⟨0x9000000000001000, 0x10000⟩,
      ⟨0x9000000000200000, 0x1000000⟩]
  | .aarch64 | .riscv64 => []

def hvisorCopy : Move 64 :=
  ⟨config.hvisorBinLoadAddr, config.hvisorBinStart, config.hvisorBinSize.toNat⟩

def vmlinuxCopy : Move 64 :=
  ⟨config.vmlinuxLoadAddr, config.hvisorZone0VmlinuxStart, config.vmlinuxSize.toNat⟩

/-- The copies of the embedded binaries, in `efi_main`'s order. -/
def copies : List (Move 64) :=
  config.hvisorCopy :: if config.enableVmlinux then [config.vmlinuxCopy] else []

/-- What the clears and the copies leave. -/
def composed (memory : Mem) : Mem := moveAll (clearRegions memory config.cleared) config.copies

/-- The load addresses and the embedded binaries are placed so that no range wraps
    and no write reaches an embedded binary. -/
structure Placed : Prop where
  short : ∀ copy ∈ config.copies, copy.length < 2 ^ 31
  fits : ∀ copy ∈ config.copies, copy.Fits
  clearedFits : ∀ region ∈ config.cleared, region.Fits
  apart : config.copies.Pairwise fun first second => Disjoint first.target second.target
  clear : ∀ copy ∈ config.copies, ∀ other ∈ config.copies, Disjoint copy.target other.source
  clearedClear : ∀ region ∈ config.cleared, ∀ copy ∈ config.copies,
    Disjoint region.addresses copy.source

/-- How the memory `after` the composition relates to the one `before` it. -/
structure Composes (before after : Mem) : Prop where
  /-- Each destination range equals its embedded binary. -/
  copied : ∀ copy ∈ config.copies,
    readBytes after copy.dest copy.length = readBytes before copy.src copy.length
  /-- A cleared region is zero wherever no image was copied over it. -/
  cleared : ∀ region ∈ config.cleared, ∀ address ∈ region.addresses,
    (∀ copy ∈ config.copies, address ∉ copy.target) → after address = 0
  unchanged : ∀ address, (∀ copy ∈ config.copies, address ∉ copy.target) →
    (∀ region ∈ config.cleared, address ∉ region.addresses) → after address = before address

variable {config}

theorem Placed.composes (placed : config.Placed) (memory : Mem) :
    config.Composes memory (config.composed memory) where
  copied copy member := by
    rw [composed, moveAll_delivers placed.fits placed.apart placed.clear member]
    apply readBytes_congr (placed.fits copy member).src
    intro address inSource
    apply clearRegions_outside placed.clearedFits
    intro region regionMember cleared
    exact Set.disjoint_left.mp (placed.clearedClear region regionMember copy member) cleared
      inSource
  cleared region member address inside uncovered := by
    rw [composed, moveAll_outside placed.fits uncovered]
    exact clearRegions_inside placed.clearedFits (.inr ⟨region, member, inside⟩)
  unchanged address uncovered outside := by
    rw [composed, moveAll_outside placed.fits uncovered,
      clearRegions_outside placed.clearedFits outside]

/-- The composition of some bytes depends on these only, if the embedded binaries are among
    them. -/
theorem Placed.composed_eqOn (placed : config.Placed) {cells : Set UINTN}
    (sources : ∀ copy ∈ config.copies, copy.source ⊆ cells) {first second : Mem}
    (agree : Set.EqOn first second cells) :
    Set.EqOn (config.composed first) (config.composed second) cells :=
  moveAll_eqOn placed.fits sources (clearRegions_eqOn placed.clearedFits agree)

end Config

variable {σ : Type} {firmware : Firmware σ} {kept : Set UINTN}

/-- An `int` length below 2^31 is the length itself. -/
theorem int_length {size : UINTN} (short : size.toNat < 2 ^ 31) :
    (size.setWidth 32).toInt.toNat = size.toNat := by
  have truncated : (size.setWidth 32).toNat = size.toNat := by
    rw [BitVec.toNat_setWidth, Nat.mod_eq_of_lt (by omega)]
  rw [BitVec.toInt_eq_toNat_of_lt (by omega), truncated, Int.toNat_natCast]

/-- `memcpy2` between ranges that are apart is a move. -/
theorem memcpy2_moves {move : Move 64} {size : UINTN} (sized : move.length = size.toNat)
    (short : move.length < 2 ^ 31) (fits : move.Fits) (clear : Disjoint move.target move.source)
    (memory : Mem) :
    replay memory (copyUpLog memory move.dest move.src (size.setWidth 32).toInt.toNat) =
      move.apply memory := by
  rw [int_length (by omega), ← sized, replay_copyUpLog, Move.copyUp_eq_apply fits clear]

/-- `memset2` to zero clears a region. -/
theorem wp_memset2_clears (base : UINTN) {length : Nat} {n : Int32}
    (sized : n.toInt.toNat = length) (world : World σ) :
    wp (machine firmware) (memset2 base 0 n)
      (fun _ after => after.memory = Region.clear world.memory ⟨base, length⟩) world := by
  rw [wp_memset2, World.storeAll_memory, replay_writeLog, sized]
  rfl

theorem wp_archBeforeExitBootServices (config : Config) (world : World σ) :
    wp (machine firmware) (archBeforeExitBootServices config)
      (fun _ after => after.memory = clearRegions world.memory config.cleared) world := by
  unfold archBeforeExitBootServices Config.cleared
  cases config.arch with
  | aarch64 => rfl
  | riscv64 => rfl
  | loongarch64 =>
    have sixteenMiB : (0x1000000 : Int32).toInt.toNat = 0x1000000 := by decide
    have sixtyFourKiB : (0x10000 : Int32).toInt.toNat = 0x10000 := by decide
    dsimp only
    rw [archClearMemoryRegions, wp_bind]
    apply wp_mono (wp_memset2_clears config.hvisorBinLoadAddr sixteenMiB world)
    intro _ first firstMemory
    rw [wp_bind]
    apply wp_mono (wp_memset2_clears 0x9000000000001000 sixtyFourKiB first)
    intro _ second secondMemory
    apply wp_mono (wp_memset2_clears 0x9000000000200000 sixteenMiB second)
    intro _ third thirdMemory
    rw [thirdMemory, secondMemory, firstMemory, clearRegions_cons, clearRegions_cons,
      clearRegions_cons, clearRegions_nil]

/-! ## Between the writes

`Print` is a call into the firmware.  What is known of memory behind it is known of the
bytes that the firmware spares. -/

/-- No service but `GetMemoryMap` changes a byte of `kept`. -/
def ServiceSpares (firmware : Firmware σ) (kept : Set UINTN) (op : Op) (world : World σ) : Prop :=
  ∀ service, op = .service service → (∀ vars buffer, service ≠ .getMemoryMap vars buffer) →
    Set.EqOn (firmware service world.firmware world.memory).2.2 world.memory kept

/-- An aloof part returns, and leaves the bytes as they are. -/
theorem wpSafe_aloof {α : Type} {program : Packer α} (aloof : Issues Op.Aloof program)
    (world : World σ) :
    wpSafe (machine firmware) (ServiceSpares firmware kept) program
      (fun _ after => Set.EqOn after.memory world.memory kept) world := by
  apply wpSafe_of_issues
    (fun before after : World σ => Set.EqOn after.memory before.memory kept)
    (fun _ => Set.eqOn_refl _ _) (fun _ _ _ first second => second.trans first) ?_ aloof
  intro op before isAloof spares
  cases op with
  | service service =>
    have other : ∀ vars buffer, service ≠ .getMemoryMap vars buffer := by
      rintro vars buffer rfl
      cases isAloof
    exact ⟨_, _, rfl, spares service rfl other⟩
  | putChar char => exact ⟨_, _, rfl, Set.eqOn_refl _ _⟩
  | hardware step => exact ⟨_, _, rfl, Set.eqOn_refl _ _⟩
  | load address => cases isAloof
  | store address byte => cases isAloof
  | enter callee => cases isAloof
  | spin => cases isAloof

theorem aloof_print (format : String) (args : List PrintArg) :
    Issues Op.Aloof (print format args) := issues_print.mpr trivial

theorem aloof_printBinaryInfo (config : Config) : Issues Op.Aloof (printBinaryInfo config) :=
  printBinaryInfo_issues (fun _ _ => trivial) config

/-- One of the two copies, with the line that is printed behind it. -/
theorem wpSafe_copy {config : Config} (placed : config.Placed) {move : Move 64}
    (listed : move ∈ config.copies) (sources : move.source ⊆ kept) {size : UINTN}
    (sized : move.length = size.toNat) (format : String) (args : List PrintArg)
    (world : World σ) :
    wpSafe (machine firmware) (ServiceSpares firmware kept)
      (memcpy2 move.dest move.src (size.setWidth 32) >>= fun _ => print format args)
      (fun _ after => Set.EqOn after.memory (move.apply world.memory) kept) world := by
  have copied : wp (machine firmware) (memcpy2 move.dest move.src (size.setWidth 32))
      (fun _ after => after.memory = move.apply world.memory) world := by
    rw [wp_memcpy2, World.storeAll_memory]
    exact memcpy2_moves sized (placed.short _ listed) (placed.fits _ listed)
      (placed.clear _ listed _ listed) world.memory
  apply wpSafe_bind
  apply wpSafe_mono (wpSafe_of_wp copied)
  intro _ middle middleMemory
  rw [← middleMemory]
  exact wpSafe_aloof (aloof_print format args) middle

/-- The loops of the packer leave the composed memory, among the bytes that no service changes
    on the way. -/
theorem wpSafe_composeMemory {config : Config} (placed : config.Placed)
    (sources : ∀ copy ∈ config.copies, copy.source ⊆ kept) (world : World σ) :
    wpSafe (machine firmware) (ServiceSpares firmware kept) (composeMemory config)
      (fun _ after => Set.EqOn after.memory (config.composed world.memory) kept) world := by
  have hvisor : config.hvisorCopy ∈ config.copies := List.mem_cons_self
  rw [composeMemory]
  apply wpSafe_bind
  apply wpSafe_mono (wpSafe_of_wp (wp_archBeforeExitBootServices config world))
  intro _ hooked hookedMemory
  apply wpSafe_bind
  apply wpSafe_mono (wpSafe_aloof (aloof_print _ _) hooked)
  intro _ announced announcedSame
  apply wpSafe_bind
  apply wpSafe_mono (wpSafe_aloof (aloof_printBinaryInfo config) announced)
  intro _ informed informedSame
  apply wpSafe_bind
  apply wpSafe_mono (wpSafe_aloof (aloof_print _ _) informed)
  intro _ ready readySame
  have readyMemory : Set.EqOn ready.memory (clearRegions world.memory config.cleared) kept := by
    rw [← hookedMemory]
    exact readySame.trans (informedSame.trans announcedSame)
  apply wpSafe_bind
  apply wpSafe_mono (wpSafe_copy placed hvisor (sources _ hvisor) rfl _ _ ready)
  intro _ copied copiedSame
  have copiedMemory := copiedSame.trans
    (Move.apply_eqOn (placed.fits _ hvisor) (sources _ hvisor) readyMemory)
  cases enabled : config.enableVmlinux with
  | false =>
    apply wpSafe_of_wp
    rw [Config.composed, Config.copies, enabled]
    exact copiedMemory
  | true =>
    have vmlinux : config.vmlinuxCopy ∈ config.copies := by simp [Config.copies, enabled]
    rw [if_pos rfl]
    apply wpSafe_bind
    apply wpSafe_mono (wpSafe_aloof (aloof_print _ _) copied)
    intro _ next nextSame
    apply wpSafe_mono (wpSafe_copy placed vmlinux (sources _ vmlinux) rfl _ _ next)
    intro _ final finalSame
    rw [Config.composed, Config.copies, enabled]
    exact finalSame.trans
      (Move.apply_eqOn (placed.fits _ vmlinux) (sources _ vmlinux) (nextSame.trans copiedMemory))

/-! ## A firmware that leaves memory alone -/

theorem composeMemory_spared (keeps : PrintKeepsMemory firmware) (config : Config)
    (world : World σ) :
    Always (machine firmware) (ServiceSpares firmware Set.univ) (composeMemory config) world := by
  have issues : Issues (fun op => ∀ service, op = .service service →
      ∃ format args, service = .print format args) (composeMemory config) := by
    apply composeMemory_issues
    · intro format args service isPrint
      cases isPrint
      exact ⟨format, args, rfl⟩
    · intro address service isLoad
      cases isLoad
    · intro address byte service isStore
      cases isStore
  apply always_of_issues issues
  intro op state prints service isService _
  obtain ⟨format, args, rfl⟩ := prints service isService
  rw [keeps format args]
  exact Set.eqOn_refl _ _

/-- After the architecture hook and the copies, each destination holds its embedded
    binary, what is left of a cleared region is zero, and nothing else changed. -/
theorem composeMemory_composes (keeps : PrintKeepsMemory firmware) {config : Config}
    (placed : config.Placed) (world : World σ) :
    wp (machine firmware) (composeMemory config)
      (fun _ after => config.Composes world.memory after.memory) world := by
  have composes := wpSafe_composeMemory placed (fun _ _ => Set.subset_univ _) world
    (composeMemory_spared keeps config world)
  apply wp_mono composes
  intro _ after afterMemory
  rw [(Set.eqOn_univ _ _).mp afterMemory]
  exact placed.composes world.memory

/-- A LoongArch build whose vmlinux is copied into a region the hook clears. -/
def loongarchConfig : Config where
  arch := .loongarch64
  hvisorBinLoadAddr := 0x9000000100000000
  enableVmlinux := true
  vmlinuxLoadAddr := 0x9000000000200000
  embeddedHvisorBinPath := "hvisor.bin"
  hvisorBinStart := 0x100000
  hvisorBinEnd := 0x100010
  hvisorZone0VmlinuxStart := 0x100010
  hvisorZone0VmlinuxEnd := 0x100030

theorem loongarchConfig_placed : loongarchConfig.Placed where
  short := by decide
  fits := by decide
  clearedFits := by decide
  apart := by decide
  clear := by decide
  clearedClear := by decide

theorem composeMemory_composes_loongarch :
    wp (machine (plainFirmware 0x1000 efiSuccess)) (composeMemory loongarchConfig)
      (fun _ after => loongarchConfig.Composes (fun _ => 7) after.memory)
      (World.initial (fun _ => 7) ()) :=
  composeMemory_composes (plainFirmware_keeps 0x1000 efiSuccess).print loongarchConfig_placed
    (World.initial (fun _ => 7) ())

end HvisorUefiPacker
