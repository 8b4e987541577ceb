import HvisorUefiPacker.Soundness.Relocation
import HvisorUefiPacker.Startup

/-! # From the firmware to `efi_main`

`_start` saves what it was called with, has the image relocated, and calls
`efi_main`.  The runs below follow it there and back: they are cut at the calls,
and between the calls `InFrame` says what of the caller is still to be had.
-/

namespace HvisorUefiPacker.GnuEfi

open ByteMemory Steps StateTransition

variable {loader : Loader} {cpu : Cpu}

/-! ## The frame -/

def frameSize : Arch → Nat
  | .aarch64 => 32
  | .loongarch64 => 24
  | .riscv64 => 24

def frameBase (arch : Arch) (cpu : Cpu) : UINTN :=
  match arch with
  | .aarch64 => cpu.get .sp + -32
  | .loongarch64 => cpu.get .sp + -24
  | .riscv64 => cpu.get .sp + -24

/-- What `_start` saves, and how far above the frame's base. -/
def frameWords (arch : Arch) (cpu : Cpu) : List (UINTN × UINTN) :=
  match arch with
  | .aarch64 => [(0, cpu.get .fp), (8, cpu.get .ra), (16, cpu.get .a0), (24, cpu.get .a1)]
  | .loongarch64 => [(0, cpu.get .ra), (8, cpu.get .a0), (16, cpu.get .a1)]
  | .riscv64 => [(0, cpu.get .a0), (8, cpu.get .a1), (16, cpu.get .ra)]

def framePatches (arch : Arch) (cpu : Cpu) : List (Patch 64) :=
  (frameWords arch cpu).map fun word => ⟨frameBase arch cpu + word.1, word.2⟩

/-- The memory that `_relocate` is called with. -/
def saved (arch : Arch) (cpu : Cpu) : Mem := patchAll cpu.memory (framePatches arch cpu)

def frameCells (arch : Arch) (cpu : Cpu) : Set UINTN := block (frameBase arch cpu) (frameSize arch)

theorem apart_framePatches (arch : Arch) (cpu : Cpu) :
    ByteMemory.Apart (framePatches arch cpu) := by
  have offsets : ((frameWords arch cpu).map Prod.fst).Pairwise fun one other =>
      8 ≤ (other - one).toNat ∧ 8 ≤ (one - other).toNat := by
    cases arch with
    | aarch64 =>
      show List.Pairwise _ [0, 8, 16, 24]
      decide
    | loongarch64 =>
      show List.Pairwise _ [0, 8, 16]
      decide
    | riscv64 =>
      show List.Pairwise _ [0, 8, 16]
      decide
  rw [List.pairwise_map] at offsets
  rw [ByteMemory.Apart, framePatches, List.pairwise_map]
  apply offsets.imp
  rintro one other ⟨behind, before⟩
  apply disjoint_block
  · rwa [add_sub_add_left_eq_sub]
  · rwa [add_sub_add_left_eq_sub]

theorem frameWords_inside {arch : Arch} {word : UINTN × UINTN}
    (member : word ∈ frameWords arch cpu) : word.1.toNat + 8 ≤ frameSize arch := by
  have offsets : ∀ offset ∈ (frameWords arch cpu).map Prod.fst,
      offset.toNat + 8 ≤ frameSize arch := by
    cases arch with
    | aarch64 => simp [frameWords, frameSize]
    | loongarch64 => simp [frameWords, frameSize]
    | riscv64 => simp [frameWords, frameSize]
  exact offsets _ (List.mem_map_of_mem member)

/-- What of the caller is still to be had while `_start` runs. -/
structure InFrame (arch : Arch) (cpu current : Cpu) : Prop where
  sp : current.get .sp = frameBase arch cpu
  fp : arch ≠ .aarch64 → current.get .fp = cpu.get .fp
  frame : Set.EqOn current.memory (saved arch cpu) (frameCells arch cpu)

theorem InFrame.word {arch : Arch} {current : Cpu} (inFrame : InFrame arch cpu current)
    {offset value : UINTN} (member : (offset, value) ∈ frameWords arch cpu) :
    word64 current.memory (current.get .sp + offset) = value := by
  have inside := (inside_block (frameBase arch cpu) (frameSize arch)).field
    (frameWords_inside member)
  rw [BitVec.ofNat_toNat, BitVec.setWidth_eq] at inside
  have patch : (⟨frameBase arch cpu + offset, value⟩ : Patch 64) ∈ framePatches arch cpu :=
    List.mem_map.mpr ⟨(offset, value), member, rfl⟩
  have word := @word64_patchAll 64 cpu.memory _ wide64 (apart_framePatches arch cpu) _ patch
  rw [inFrame.sp, word64_congr inFrame.frame inside]
  exact word

/-! ## Jumps -/

/-- The instructions of `_start` are at different addresses, and the caller is elsewhere. -/
structure Placed (loader : Loader) (cpu : Cpu) : Prop where
  distinct : ∀ index < loader.code.length, ∀ other < loader.code.length,
    loader.place index = loader.place other → index = other
  outside : ∀ index < loader.code.length, loader.place index ≠ cpu.get .ra

theorem Placed.jump_inside (placed : Placed loader cpu) {pc : Nat}
    (inside : pc < loader.code.length) (current : Cpu) :
    loader.jump (loader.place pc) current = .running pc current := by
  rw [Loader.jump]
  split
  · rename_i found isFound
    have same := List.find?_some isFound
    have member := List.mem_of_find?_eq_some isFound
    rw [placed.distinct found (List.mem_range.mp member) pc inside (of_decide_eq_true same)]
  · rename_i missing
    have absent := List.find?_eq_none.mp missing pc (List.mem_range.mpr inside)
    simp at absent

theorem Placed.jump_outside (placed : Placed loader cpu) (current : Cpu) :
    loader.jump (cpu.get .ra) current = .left (cpu.get .ra) current := by
  rw [Loader.jump]
  split
  · rename_i found isFound
    have same := List.find?_some isFound
    have member := List.mem_of_find?_eq_some isFound
    exact absurd (of_decide_eq_true same) (placed.outside found (List.mem_range.mp member))
  · rfl

theorem InFrame.resumed {arch : Arch} {current : Cpu} (inFrame : InFrame arch cpu current)
    {memory : Mem} (kept : Set.EqOn memory (saved arch cpu) (frameCells arch cpu))
    (loader : Loader) (function : CFunction) (result : UINTN) :
    InFrame arch cpu (loader.resumed function result memory current) :=
  ⟨inFrame.sp, inFrame.fp, kept⟩

/-! ## Straight lines -/

theorem startStep_running {pc : Nat} {instr : Instr} (found : loader.code[pc]? = some instr) :
    loader.startStep (.running pc cpu) = some (loader.execute pc cpu instr) := by
  rw [Loader.startStep, found]
  rfl

/-- What instructions that follow one another do, the first of them at `pc`. -/
def Loader.effects (loader : Loader) : Nat → List DataInstr → Cpu → Cpu
  | _, [], cpu => cpu
  | pc, instr :: line, cpu => loader.effects (pc + 1) line (loader.effect pc cpu instr)

theorem reaches_line {pc next : Nat} (line : List DataInstr) {rest : List Instr}
    (code : loader.code.drop pc = line.map .data ++ rest) (behind : pc + line.length = next) :
    Reaches loader.startStep (.running pc cpu) (.running next (loader.effects pc line cpu)) := by
  subst behind
  induction line generalizing pc cpu with
  | nil => exact .refl
  | cons instr line inductionHypothesis =>
    have found : loader.code[pc]? = some (.data instr) := by
      rw [← List.head?_drop, code]
      rfl
    have others : loader.code.drop (pc + 1) = line.map .data ++ rest := by
      rw [← List.tail_drop, code]
      rfl
    rw [List.length_cons, Nat.add_comm line.length, ← Nat.add_assoc]
    exact reaches_step (startStep_running found) (inductionHypothesis others)

/-- A part of `_start` without calls and branches, behind which the code goes on at `next`. -/
structure Part (site next : Arch → Nat) (part : Arch → List DataInstr) : Prop where
  inside : ∀ arch, (part arch).map .data <+: (startCode arch).drop (site arch)
  behind : ∀ arch, site arch + (part arch).length = next arch

theorem Part.reaches {site next : Arch → Nat} {part : Arch → List DataInstr}
    (isPart : Part site next part) (loader : Loader) (current : Cpu) :
    Reaches loader.startStep (.running (site loader.arch) current)
      (.running (next loader.arch) (loader.effects (site loader.arch) (part loader.arch) current)) := by
  obtain ⟨rest, code⟩ := isPart.inside loader.arch
  exact reaches_line (part loader.arch) code.symm (isPart.behind loader.arch)

/-! ## Up to `_relocate` -/

def prologue : Arch → List DataInstr
  | .aarch64 =>
    [.stpPre .fp .ra .sp (-32), .move .fp .sp, .stp .a0 .a1 .sp 16, .move .a2 .a0, .move .a3 .a1,
      .address .a0 .imageBase, .page .a1 .dynamic, .addLow12 .a1 .a1 .dynamic]
  | .loongarch64 =>
    [.addi .sp .sp (-24), .store .ra .sp 0, .store .a0 .sp 8, .store .a1 .sp 16, .move .a2 .a0,
      .move .a3 .a1, .address .a0 .imageBase, .address .a1 .dynamic]
  | .riscv64 =>
    [.addi .sp .sp (-24), .store .a0 .sp 0, .store .a1 .sp 8, .store .ra .sp 16,
      .address .a0 .imageBase, .address .a1 .dynamic]

/-- Where `_relocate` is called. -/
def callSite : Arch → Nat
  | .aarch64 => 8
  | .loongarch64 => 8
  | .riscv64 => 6

theorem prologue_part : Part (fun _ => 0) callSite prologue where
  inside arch := by
    cases arch with
    | aarch64 => decide
    | loongarch64 => decide
    | riscv64 => decide
  behind arch := by
    cases arch with
    | aarch64 => rfl
    | loongarch64 => rfl
    | riscv64 => rfl

/-- The address of the dynamic section as `_start` passes it on.  On AArch64 it is put together
    from a page and the low bits. -/
def Loader.passed (loader : Loader) : UINTN :=
  match loader.arch with
  | .aarch64 => loader.adrp 6 .dynamic + (loader.linkTime loader.dynamic &&& 0xfff)
  | .loongarch64 => loader.dynamic
  | .riscv64 => loader.dynamic

theorem page_add_low12 (address : UINTN) : page address + (address &&& 0xfff) = address := by
  have all : (~~~0xfff ||| 0xfff : UINTN) = BitVec.allOnes 64 := by decide
  have none : (~~~0xfff &&& 0xfff : UINTN) = 0#64 := by decide
  have apart : page address &&& (address &&& 0xfff) = 0#64 := by
    rw [page, BitVec.and_comm address 0xfff, BitVec.and_assoc, ← BitVec.and_assoc _ 0xfff, none,
      BitVec.zero_and, BitVec.and_zero]
  rw [BitVec.add_eq_or_of_and_eq_zero _ _ apart, page, ← BitVec.and_or_distrib_left, all,
    BitVec.and_allOnes]

/-- What is at a page boundary does not change the low bits of what is behind it. -/
theorem low12_add {base : UINTN} (aligned : base &&& 0xfff = 0) (offset : UINTN) :
    (base + offset) &&& 0xfff = offset &&& 0xfff := by
  have low : ∀ address : UINTN, (address &&& 0xfff).toNat = address.toNat % 4096 := by
    intro address
    exact Nat.and_two_pow_sub_one_eq_mod address.toNat 12
  have boundary := congrArg BitVec.toNat aligned
  rw [low] at boundary
  apply BitVec.eq_of_toNat_eq
  rw [low, low, BitVec.toNat_add]
  simp at boundary
  omega

theorem page_add {base : UINTN} (aligned : base &&& 0xfff = 0) (offset : UINTN) :
    page (base + offset) = base + page offset := by
  have whole := page_add_low12 (base + offset)
  rw [low12_add aligned] at whole
  apply add_right_cancel (b := offset &&& 0xfff)
  rw [whole, add_assoc, page_add_low12]

/-- In an image at a page boundary it is the address of the dynamic section. -/
theorem Loader.passed_of_aligned (loader : Loader)
    (aligned : loader.arch = .aarch64 → loader.imageBase &&& 0xfff = 0) :
    loader.passed = loader.dynamic := by
  rw [Loader.passed]
  cases arch : loader.arch with
  | loongarch64 => rfl
  | riscv64 => rfl
  | aarch64 =>
    have boundary := aligned arch
    have atBase : ∀ address, loader.imageBase + loader.linkTime address = address := by
      intro address
      rw [Loader.linkTime, add_sub_cancel]
    have here : page (loader.place 6) =
        loader.imageBase + page (loader.linkTime (loader.place 6)) := by
      rw [← page_add boundary, atBase]
    dsimp only
    rw [Loader.adrp, here, Loader.symbol, add_assoc, add_assoc, ← add_assoc (page _),
      add_sub_cancel, page_add_low12, atBase]

theorem prologue_memory (loader : Loader) (cpu : Cpu) :
    (loader.effects 0 (prologue loader.arch) cpu).memory = saved loader.arch cpu := by
  cases loader.arch with
  | aarch64 =>
    simp [prologue, Loader.effects, Loader.effect, saved, framePatches, frameWords, frameBase, BitVec.add_assoc]
  | loongarch64 => simp [prologue, Loader.effects, Loader.effect, saved, framePatches, frameWords, frameBase]
  | riscv64 => simp [prologue, Loader.effects, Loader.effect, saved, framePatches, frameWords, frameBase]

theorem prologue_arguments (loader : Loader) (cpu : Cpu) :
    (loader.effects 0 (prologue loader.arch) cpu).get .a0 = loader.imageBase ∧
      (loader.effects 0 (prologue loader.arch) cpu).get .a1 = loader.passed := by
  rw [Loader.passed]
  cases loader.arch with
  | aarch64 => simp [prologue, Loader.effects, Loader.effect, Loader.symbol]
  | loongarch64 => simp [prologue, Loader.effects, Loader.effect, Loader.symbol]
  | riscv64 => simp [prologue, Loader.effects, Loader.effect, Loader.symbol]

theorem prologue_inFrame (loader : Loader) (cpu : Cpu) :
    InFrame loader.arch cpu (loader.effects 0 (prologue loader.arch) cpu) where
  sp := by
    cases loader.arch with
    | aarch64 => simp [prologue, Loader.effects, Loader.effect, frameBase]
    | loongarch64 => simp [prologue, Loader.effects, Loader.effect, frameBase]
    | riscv64 => simp [prologue, Loader.effects, Loader.effect, frameBase]
  fp := by
    intro other
    cases arch : loader.arch with
    | aarch64 => exact absurd arch other
    | loongarch64 => simp [prologue, Loader.effects, Loader.effect]
    | riscv64 => simp [prologue, Loader.effects, Loader.effect]
  frame := by
    rw [prologue_memory]
    exact Set.eqOn_refl _ _

theorem start_calls_relocate (loader : Loader) (cpu : Cpu) :
    ∃ called, Reaches loader.startStep (.running 0 cpu)
        (.relocating (relocate loader.passed (saved loader.arch cpu)) called) ∧
      called.get .a0 = loader.imageBase ∧
      called.get .ra = loader.place (callSite loader.arch + 1) ∧
      InFrame loader.arch cpu called := by
  have line : Reaches loader.startStep (.running 0 cpu)
      (.running (callSite loader.arch) (loader.effects 0 (prologue loader.arch) cpu)) :=
    prologue_part.reaches loader _
  have call : loader.code[callSite loader.arch]? = some (.call .relocate) := by
    rw [Loader.code]
    cases loader.arch with
    | aarch64 => rfl
    | loongarch64 => rfl
    | riscv64 => rfl
  obtain ⟨base, dynamic⟩ := prologue_arguments loader cpu
  have memory := prologue_memory loader cpu
  have inFrame := prologue_inFrame loader cpu
  generalize loader.effects 0 (prologue loader.arch) cpu = ready at *
  refine ⟨ready.set (loader.place (callSite loader.arch + 1)) .ra,
    line.trans (reaches_of_step ((startStep_running call).trans ?_)), ?_, ?_, ?_⟩
  · rw [← memory, ← dynamic]
    rfl
  · exact base
  · rfl
  · exact ⟨inFrame.sp, inFrame.fp, inFrame.frame⟩

/-! ## Behind `_relocate` -/

theorem relocate_embeds (loader : Loader) (called : Cpu) :
    Embeds (relocateStep loader.arch (called.get .a0)) loader.startStep
      fun state => .relocating state called := by
  intro state next stepped
  cases state with
  | scan dyn table memory =>
    rw [Loader.startStep]
    · change (relocateStep loader.arch (called.get .a0) _).map _ = _
      rw [stepped]
      rfl
    · simp
  | apply table memory =>
    rw [Loader.startStep]
    · change (relocateStep loader.arch (called.get .a0) _).map _ = _
      rw [stepped]
      rfl
    · simp
  | returned status memory => cases stepped

theorem callSite_lt (loader : Loader) : callSite loader.arch + 1 < loader.code.length := by
  rw [Loader.code]
  cases loader.arch with
  | aarch64 => decide
  | loongarch64 => decide
  | riscv64 => decide

/-- `_relocate` has returned to the branch. -/
theorem start_reaches_branch (placed : Placed loader cpu) {status : EfiStatus} {after : Mem}
    (returned : .returned status after ∈
      eval (relocateStep loader.arch loader.imageBase)
        (relocate loader.passed (saved loader.arch cpu)))
    (kept : Set.EqOn after (saved loader.arch cpu) (frameCells loader.arch cpu)) :
    ∃ current, Reaches loader.startStep (.running 0 cpu)
        (.running (callSite loader.arch + 1) current) ∧
      current.get .a0 = status ∧ current.get .ra = loader.place (callSite loader.arch + 1) ∧
      current.memory = after ∧ InFrame loader.arch cpu current := by
  obtain ⟨called, calls, base, ra, inFrame⟩ := start_calls_relocate loader cpu
  rw [← base] at returned
  have runs := (relocate_embeds loader called).reaches (mem_eval.mp returned).1
  have back : loader.startStep (.relocating (.returned status after) called) =
      some (.running (callSite loader.arch + 1)
        (loader.resumed .relocate status after called)) := by
    have target : called.ra = loader.place (callSite loader.arch + 1) := ra
    rw [Loader.startStep, Loader.back, target, placed.jump_inside (callSite_lt loader)]
  exact ⟨_, calls.trans (runs.trans (reaches_of_step back)), rfl, ra, rfl,
    inFrame.resumed kept loader .relocate status⟩

/-! ## To `efi_main` and back -/

def reload : Arch → List DataInstr
  | .aarch64 => [.ldp .a0 .a1 .sp 16]
  | .loongarch64 => [.load .a0 .sp 8, .load .a1 .sp 16]
  | .riscv64 => [.load .a1 .sp 8, .load .a0 .sp 0]

/-- Where `efi_main` is called. -/
def mainSite : Arch → Nat
  | .aarch64 => 11
  | .loongarch64 => 12
  | .riscv64 => 10

theorem reload_part : Part (fun arch => callSite arch + 2) mainSite reload where
  inside arch := by
    cases arch with
    | aarch64 => decide
    | loongarch64 => decide
    | riscv64 => decide
  behind arch := by
    cases arch with
    | aarch64 => rfl
    | loongarch64 => rfl
    | riscv64 => rfl

theorem reload_arguments {current : Cpu} (inFrame : InFrame loader.arch cpu current) :
    (loader.effects (callSite loader.arch + 2) (reload loader.arch) current).get .a0 = cpu.get .a0 ∧
      (loader.effects (callSite loader.arch + 2) (reload loader.arch) current).get .a1 = cpu.get .a1 := by
  cases arch : loader.arch with
  | aarch64 =>
    rw [arch] at inFrame
    have first : word64 current.memory (current.get .sp + 16) = cpu.get .a0 :=
      inFrame.word (by simp [frameWords])
    have second : word64 current.memory (current.get .sp + 24) = cpu.get .a1 :=
      inFrame.word (by simp [frameWords])
    simpa [reload, Loader.effects, Loader.effect, BitVec.add_assoc] using And.intro first second
  | loongarch64 =>
    rw [arch] at inFrame
    have first : word64 current.memory (current.get .sp + 8) = cpu.get .a0 :=
      inFrame.word (by simp [frameWords])
    have second : word64 current.memory (current.get .sp + 16) = cpu.get .a1 :=
      inFrame.word (by simp [frameWords])
    simpa [reload, Loader.effects, Loader.effect] using And.intro first second
  | riscv64 =>
    rw [arch] at inFrame
    have first : word64 current.memory (current.get .sp + 0) = cpu.get .a0 :=
      inFrame.word (by simp [frameWords])
    have second : word64 current.memory (current.get .sp + 8) = cpu.get .a1 :=
      inFrame.word (by simp [frameWords])
    simpa [reload, Loader.effects, Loader.effect] using And.intro first second

theorem reload_keeps {current : Cpu} (loader : Loader) :
    (loader.effects (callSite loader.arch + 2) (reload loader.arch) current).memory = current.memory ∧
      (loader.effects (callSite loader.arch + 2) (reload loader.arch) current).get .sp = current.get .sp ∧
      (loader.effects (callSite loader.arch + 2) (reload loader.arch) current).get .fp = current.get .fp := by
  cases loader.arch with
  | aarch64 => simp [reload, Loader.effects, Loader.effect]
  | loongarch64 => simp [reload, Loader.effects, Loader.effect]
  | riscv64 => simp [reload, Loader.effects, Loader.effect]

/-- Where the branch behind `_relocate` leads to. -/
def failLabel : Arch → Nat
  | .aarch64 => 12
  | .loongarch64 => 13
  | .riscv64 => 12

theorem startStep_branch (loader : Loader) (current : Cpu) :
    loader.startStep (.running (callSite loader.arch + 1) current) =
      some (.running
        (if current.get .a0 ≠ 0 then failLabel loader.arch else callSite loader.arch + 2)
        current) := by
  have found : loader.code[callSite loader.arch + 1]? =
      some (.branchNonzero .a0 (failLabel loader.arch)) := by
    rw [Loader.code]
    cases loader.arch with
    | aarch64 => rfl
    | loongarch64 => rfl
    | riscv64 => rfl
  rw [startStep_running found, Loader.execute]

theorem branch_enters_main {current : Cpu} (succeeded : current.get .a0 = efiSuccess)
    (inFrame : InFrame loader.arch cpu current) :
    ∃ entered, Reaches loader.startStep (.running (callSite loader.arch + 1) current)
        (.inMain entered) ∧
      entered.get .a0 = cpu.get .a0 ∧ entered.get .a1 = cpu.get .a1 ∧
      entered.memory = current.memory ∧
      entered.get .ra = loader.place (mainSite loader.arch + 1) ∧
      InFrame loader.arch cpu entered := by
  have branch : loader.startStep (.running (callSite loader.arch + 1) current) =
      some (.running (callSite loader.arch + 2) current) := by
    rw [startStep_branch, if_neg fun failed => failed succeeded]
  have line : Reaches loader.startStep (.running (callSite loader.arch + 2) current)
      (.running (mainSite loader.arch) (loader.effects (callSite loader.arch + 2) (reload loader.arch) current)) :=
    reload_part.reaches loader _
  have call : loader.code[mainSite loader.arch]? = some (.call .efiMain) := by
    rw [Loader.code]
    cases loader.arch with
    | aarch64 => rfl
    | loongarch64 => rfl
    | riscv64 => rfl
  obtain ⟨first, second⟩ := reload_arguments inFrame
  obtain ⟨memory, sp, fp⟩ := @reload_keeps current loader
  generalize loader.effects (callSite loader.arch + 2) (reload loader.arch) current = ready at *
  refine ⟨ready.set (loader.place (mainSite loader.arch + 1)) .ra,
    reaches_step branch (line.trans (reaches_of_step (startStep_running call))),
    first, second, memory, rfl, ?_⟩
  exact ⟨sp.trans inFrame.sp, fun other => fp.trans (inFrame.fp other), memory ▸ inFrame.frame⟩

def epilogue : Arch → List DataInstr
  | .aarch64 => [.ldpPost .fp .ra .sp 32]
  | .loongarch64 => [.load .ra .sp 0, .addi .sp .sp 24]
  | .riscv64 => [.load .ra .sp 16, .addi .sp .sp 24]

/-- Where `_start` returns. -/
def returnSite : Arch → Nat
  | .aarch64 => 13
  | .loongarch64 => 15
  | .riscv64 => 13

theorem epilogue_part : Part (fun arch => mainSite arch + 1) returnSite epilogue where
  inside arch := by
    cases arch with
    | aarch64 => decide
    | loongarch64 => decide
    | riscv64 => decide
  behind arch := by
    cases arch with
    | aarch64 => rfl
    | loongarch64 => rfl
    | riscv64 => rfl

/-- The caller has its registers back. -/
structure Restored (cpu last : Cpu) : Prop where
  sp : last.get .sp = cpu.get .sp
  fp : last.get .fp = cpu.get .fp
  ra : last.get .ra = cpu.get .ra

theorem epilogue_restores {current : Cpu} (inFrame : InFrame loader.arch cpu current) :
    Restored cpu (loader.effects (mainSite loader.arch + 1) (epilogue loader.arch) current) := by
  have sp := inFrame.sp
  have fp := inFrame.fp
  cases arch : loader.arch with
  | aarch64 =>
    rw [arch] at inFrame sp
    have first : word64 current.memory (current.get .sp + 0) = cpu.get .fp :=
      inFrame.word (by simp [frameWords])
    have second : word64 current.memory (current.get .sp + 8) = cpu.get .ra :=
      inFrame.word (by simp [frameWords])
    constructor
    · simp [epilogue, Loader.effects, Loader.effect, sp, frameBase, BitVec.add_assoc]
    · simpa [epilogue, Loader.effects, Loader.effect] using first
    · simpa [epilogue, Loader.effects, Loader.effect] using second
  | loongarch64 =>
    rw [arch] at inFrame sp fp
    have word : word64 current.memory (current.get .sp + 0) = cpu.get .ra :=
      inFrame.word (by simp [frameWords])
    constructor
    · simp [epilogue, Loader.effects, Loader.effect, sp, frameBase, BitVec.add_assoc]
    · simpa [epilogue, Loader.effects, Loader.effect] using fp
    · simpa [epilogue, Loader.effects, Loader.effect] using word
  | riscv64 =>
    rw [arch] at inFrame sp fp
    have word : word64 current.memory (current.get .sp + 16) = cpu.get .ra :=
      inFrame.word (by simp [frameWords])
    constructor
    · simp [epilogue, Loader.effects, Loader.effect, sp, frameBase, BitVec.add_assoc]
    · simpa [epilogue, Loader.effects, Loader.effect] using fp
    · simpa [epilogue, Loader.effects, Loader.effect] using word

theorem epilogue_keeps {current : Cpu} (loader : Loader) :
    (loader.effects (mainSite loader.arch + 1) (epilogue loader.arch) current).memory = current.memory ∧
      (loader.effects (mainSite loader.arch + 1) (epilogue loader.arch) current).get .a0 = current.get .a0 := by
  cases loader.arch with
  | aarch64 => simp [epilogue, Loader.effects, Loader.effect]
  | loongarch64 => simp [epilogue, Loader.effects, Loader.effect]
  | riscv64 => simp [epilogue, Loader.effects, Loader.effect]

/-- What `_start` hands back to the firmware. -/
def HandsBack (cpu : Cpu) (status : EfiStatus) (memory : Mem) (final : Startup) : Prop :=
  ∃ last, final = .left (cpu.get .ra) last ∧ last.get .a0 = status ∧ last.memory = memory ∧
    Restored cpu last

theorem epilogue_hands_back (placed : Placed loader cpu) {current : Cpu}
    (inFrame : InFrame loader.arch cpu current) :
    Halts loader.startStep (HandsBack cpu (current.get .a0) current.memory)
      (.running (mainSite loader.arch + 1) current) := by
  have line : Reaches loader.startStep (.running (mainSite loader.arch + 1) current)
      (.running (returnSite loader.arch)
        (loader.effects (mainSite loader.arch + 1) (epilogue loader.arch) current)) :=
    epilogue_part.reaches loader _
  have returns : loader.code[returnSite loader.arch]? = some .ret := by
    rw [Loader.code]
    cases loader.arch with
    | aarch64 => rfl
    | loongarch64 => rfl
    | riscv64 => rfl
  have restored := epilogue_restores inFrame
  obtain ⟨memory, result⟩ := @epilogue_keeps current loader
  generalize loader.effects (mainSite loader.arch + 1) (epilogue loader.arch) current = last at *
  have jumps : loader.startStep (.running (returnSite loader.arch) last) =
      some (.left (cpu.get .ra) last) := by
    have target : last.ra = cpu.get .ra := restored.ra
    rw [startStep_running returns, Loader.execute, target, placed.jump_outside]
  exact halts_of_reaches line (halts_of_step jumps
    (halts_of_end rfl ⟨last, rfl, result, memory, restored⟩))

/-! ## Whole runs -/

section Runs

variable {status : EfiStatus} {after : Mem}

theorem start_enters_main (placed : Placed loader cpu)
    (returned : .returned efiSuccess after ∈
      eval (relocateStep loader.arch loader.imageBase)
        (relocate loader.passed (saved loader.arch cpu)))
    (kept : Set.EqOn after (saved loader.arch cpu) (frameCells loader.arch cpu)) :
    ∃ entered, Reaches loader.startStep (.running 0 cpu) (.inMain entered) ∧
      entered.get .a0 = cpu.get .a0 ∧ entered.get .a1 = cpu.get .a1 ∧ entered.memory = after ∧
      entered.get .ra = loader.place (mainSite loader.arch + 1) ∧
      InFrame loader.arch cpu entered := by
  obtain ⟨current, reaches, result, -, memory, inFrame⟩ := start_reaches_branch placed returned kept
  obtain ⟨entered, enters, first, second, same, ra, kept⟩ := branch_enters_main result inFrame
  exact ⟨entered, reaches.trans enters, first, second, same.trans memory, ra, kept⟩

theorem mainSite_lt (loader : Loader) : mainSite loader.arch + 1 < loader.code.length := by
  rw [Loader.code]
  cases loader.arch with
  | aarch64 => decide
  | loongarch64 => decide
  | riscv64 => decide

theorem main_hands_back (placed : Placed loader cpu) {entered : Cpu}
    (ra : entered.get .ra = loader.place (mainSite loader.arch + 1))
    (inFrame : InFrame loader.arch cpu entered)
    (main : loader.efiMain (entered.get .a0) (entered.get .a1) entered.memory =
      some (status, after))
    (kept : Set.EqOn after (saved loader.arch cpu) (frameCells loader.arch cpu)) :
    Halts loader.startStep (HandsBack cpu status after) (.inMain entered) := by
  have returns : loader.startStep (.inMain entered) =
      some (.running (mainSite loader.arch + 1)
        (loader.resumed .efiMain status after entered)) := by
    have called : loader.efiMain entered.a0 entered.a1 entered.memory = some (status, after) := main
    have target : entered.ra = loader.place (mainSite loader.arch + 1) := ra
    simp only [Loader.startStep, called, Loader.back, target]
    rw [placed.jump_inside (mainSite_lt loader)]
  exact halts_of_step returns
    (epilogue_hands_back placed (inFrame.resumed kept loader .efiMain status))

theorem failed_branch (placed : Placed loader cpu)
    (returned : .returned status after ∈
      eval (relocateStep loader.arch loader.imageBase)
        (relocate loader.passed (saved loader.arch cpu)))
    (kept : Set.EqOn after (saved loader.arch cpu) (frameCells loader.arch cpu))
    (failed : status ≠ efiSuccess) :
    ∃ current, Reaches loader.startStep (.running 0 cpu)
        (.running (failLabel loader.arch) current) ∧
      current.get .a0 = status ∧ current.get .ra = loader.place (callSite loader.arch + 1) ∧
      current.memory = after ∧ InFrame loader.arch cpu current := by
  obtain ⟨current, reaches, result, ra, memory, inFrame⟩ :=
    start_reaches_branch placed returned kept
  have branch : loader.startStep (.running (callSite loader.arch + 1) current) =
      some (.running (failLabel loader.arch) current) := by
    rw [startStep_branch, if_pos (result ▸ failed)]
  exact ⟨current, reaches.tail branch, result, ra, memory, inFrame⟩

/-- Where the branch leads to the epilogue, the firmware gets the status of `_relocate`. -/
theorem failure_hands_back (placed : Placed loader cpu) (notRiscv : loader.arch ≠ .riscv64)
    (returned : .returned status after ∈
      eval (relocateStep loader.arch loader.imageBase)
        (relocate loader.passed (saved loader.arch cpu)))
    (kept : Set.EqOn after (saved loader.arch cpu) (frameCells loader.arch cpu))
    (failed : status ≠ efiSuccess) :
    Halts loader.startStep (HandsBack cpu status after) (.running 0 cpu) := by
  obtain ⟨current, reaches, result, -, memory, inFrame⟩ := failed_branch placed returned kept failed
  have label : failLabel loader.arch = mainSite loader.arch + 1 := by
    cases arch : loader.arch with
    | aarch64 => rfl
    | loongarch64 => rfl
    | riscv64 => exact absurd arch notRiscv
  rw [label] at reaches
  have back := epilogue_hands_back placed inFrame
  rw [result, memory] at back
  exact halts_of_reaches reaches back

/-! ### The RISC-V branch -/

/-- Behind the branch of the RISC-V file `ra` is still the address of the branch. -/
structure Spinning (loader : Loader) (status : EfiStatus) (current : Cpu) : Prop where
  result : current.get .a0 = status
  ra : current.get .ra = loader.place (callSite loader.arch + 1)

theorem spin_round (placed : Placed loader cpu) (riscv : loader.arch = .riscv64)
    (failed : status ≠ efiSuccess) {current : Cpu} (spinning : Spinning loader status current) :
    Reaches₁ loader.startStep (.running (failLabel loader.arch) current)
        (.running (failLabel loader.arch) (current.set (current.get .sp + 24) .sp)) ∧
      Spinning loader status (current.set (current.get .sp + 24) .sp) := by
  have code : loader.code = startRiscv64 := by rw [Loader.code, riscv, startCode]
  have label : failLabel loader.arch = 12 := by rw [riscv, failLabel]
  let popped := current.set (current.get .sp + 24) .sp
  have still : Spinning loader status popped := ⟨spinning.result, spinning.ra⟩
  have pop : loader.startStep (.running (failLabel loader.arch) current) =
      some (.running 13 popped) := by
    have found : loader.code[12]? = some (.data (.addi .sp .sp 24)) := by rw [code]; rfl
    rw [label]
    exact startStep_running found
  have back : loader.startStep (.running 13 popped) =
      some (.running (callSite loader.arch + 1) popped) := by
    have returns : loader.code[13]? = some .ret := by rw [code]; rfl
    have target : popped.ra = loader.place (callSite loader.arch + 1) := still.ra
    rw [startStep_running returns, Loader.execute, target, placed.jump_inside (callSite_lt loader)]
  have branch : loader.startStep (.running (callSite loader.arch + 1) popped) =
      some (.running (failLabel loader.arch) popped) := by
    rw [startStep_branch, if_pos (still.result ▸ failed)]
  exact ⟨.head' pop (reaches_step back (reaches_of_step branch)), still⟩

/-- The stack pointer rises by 24 with every round. -/
theorem spin_rounds (placed : Placed loader cpu) (riscv : loader.arch = .riscv64)
    (failed : status ≠ efiSuccess) {current : Cpu} (spinning : Spinning loader status current)
    (rounds : Nat) :
    ∃ later, Reaches loader.startStep (.running (failLabel loader.arch) current)
        (.running (failLabel loader.arch) later) ∧
      later.get .sp = current.get .sp + 24 * BitVec.ofNat 64 rounds ∧
      later.memory = current.memory ∧ Spinning loader status later := by
  induction rounds with
  | zero => exact ⟨current, .refl, by simp, rfl, spinning⟩
  | succ rounds inductionHypothesis =>
    obtain ⟨later, reaches, sp, memory, still⟩ := inductionHypothesis
    obtain ⟨round, next⟩ := spin_round placed riscv failed still
    refine ⟨later.set (later.get .sp + 24) .sp, reaches.trans round.to_reflTransGen, ?_,
      (Cpu.memory_set ..).trans memory, next⟩
    rw [Cpu.get_set, if_pos rfl, sp, BitVec.ofNat_add, BitVec.mul_add, BitVec.add_assoc]
    rfl

theorem spin_forever (placed : Placed loader cpu) (riscv : loader.arch = .riscv64)
    (failed : status ≠ efiSuccess) {current : Cpu} (spinning : Spinning loader status current) :
    Forever loader.startStep (.running (failLabel loader.arch) current) := by
  apply forever_of_rounds fun state =>
    ∃ current, state = .running (failLabel loader.arch) current ∧ Spinning loader status current
  · rintro _ ⟨current, rfl, spinning⟩
    obtain ⟨round, next⟩ := spin_round placed riscv failed spinning
    exact ⟨_, round, _, rfl, next⟩
  · exact ⟨current, rfl, spinning⟩

end Runs

end HvisorUefiPacker.GnuEfi
