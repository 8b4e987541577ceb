import HvisorUefiPacker.RuntimeLib

/-! # core.c

The freestanding helpers of the packer: memory loops counted in a 32-bit `int`,
the serial printers, status strings, `check`, and `exit_boot_services`.
-/

namespace HvisorUefiPacker

open Interaction Interaction.Program ByteMemory

/-- `arch_type_t`, which also selects the operations of `arch_ops`. -/
inductive Arch where
  | aarch64
  | loongarch64
  | riscv64
deriving DecidableEq

/-! ## Memory loops -/

/-- `for (int i = 0; i < n; i++)` -/
def forInt (n : Int32) (body : Nat → Packer Unit) : Packer Unit :=
  repeatFrom body n.toInt.toNat 0

def memcpy2 (dest src : UINTN) (n : Int32) : Packer Unit :=
  forInt n fun i => do
    let byte ← load (src + BitVec.ofNat 64 i)
    store (dest + BitVec.ofNat 64 i) byte

def memset2 (dest : UINTN) (val n : Int32) : Packer Unit :=
  forInt n fun i => store (dest + BitVec.ofNat 64 i) (val.setWidth 8)

/-! ## Printing -/

def halt {α : Type} : Packer α := do
  print "[INFO] halt: halting system\n" []
  spin

/-- `arch_ops` is NULL until `arch_detect_and_init` has run. -/
def printChar (archOps : Option Arch) (c : Byte) : Packer Unit :=
  match archOps with
  | some _ => putChar c
  | none => pure ()

def printStr (archOps : Option Arch) (str : List Byte) : Packer Unit :=
  forEach (printChar archOps) str

/-- `c > 9 ? c - 10 + 'A' : c + '0'` -/
def hexDigit (c : Byte) : Byte := if 9 < c then c - 10 + 0x41 else c + 0x30

def printHex (archOps : Option Arch) (n : UINT8) : Packer Unit := do
  printChar archOps (hexDigit (n >>> 4))
  printChar archOps (hexDigit (n &&& 0xf))

/-- Characters below 32 or above 126 print as `?`, line breaks excepted. -/
def printable (c : Byte) : Byte :=
  if (32 ≤ c ∧ c ≤ 126) ∨ c = 10 ∨ c = 13 then c else 0x3f

def printChars (c : UINTN) (n : Int32) : Packer Unit :=
  forInt n fun j => do
    let c1 ← load (c + BitVec.ofNat 64 j)
    print "%c" [.number ((printable c1).setWidth 64)]

/-! ## Status strings -/

/-- The cases of the `switch` in `get_efi_status_string`. -/
def efiStatusNames : List (EfiStatus × String) :=
  [(efiSuccess, "EFI_SUCCESS"), (efiErr 1, "EFI_LOAD_ERROR"),
    (efiErr 2, "EFI_INVALID_PARAMETER"), (efiErr 3, "EFI_UNSUPPORTED"),
    (efiErr 4, "EFI_BAD_BUFFER_SIZE"), (efiErr 5, "EFI_BUFFER_TOO_SMALL"),
    (efiErr 6, "EFI_NOT_READY"), (efiErr 7, "EFI_DEVICE_ERROR"),
    (efiErr 8, "EFI_WRITE_PROTECTED"), (efiErr 9, "EFI_OUT_OF_RESOURCES"),
    (efiErr 10, "EFI_VOLUME_CORRUPTED"), (efiErr 11, "EFI_VOLUME_FULL"),
    (efiErr 12, "EFI_NO_MEDIA"), (efiErr 13, "EFI_MEDIA_CHANGED"),
    (efiErr 14, "EFI_NOT_FOUND"), (efiErr 15, "EFI_ACCESS_DENIED"),
    (efiErr 16, "EFI_NO_RESPONSE"), (efiErr 17, "EFI_NO_MAPPING"),
    (efiErr 18, "EFI_TIMEOUT"), (efiErr 19, "EFI_NOT_STARTED"),
    (efiErr 20, "EFI_ALREADY_STARTED"), (efiErr 21, "EFI_ABORTED"),
    (efiErr 22, "EFI_ICMP_ERROR"), (efiErr 23, "EFI_TFTP_ERROR"),
    (efiErr 24, "EFI_PROTOCOL_ERROR"), (efiErr 25, "EFI_INCOMPATIBLE_VERSION"),
    (efiErr 26, "EFI_SECURITY_VIOLATION"), (efiErr 27, "EFI_CRC_ERROR"),
    (efiErr 28, "EFI_END_OF_MEDIA"), (efiErr 31, "EFI_END_OF_FILE"),
    (efiErr 32, "EFI_INVALID_LANGUAGE"), (efiErr 33, "EFI_COMPROMISED_DATA")]

/-- `static char buf[17]`, shared by all calls of `get_efi_status_string`. -/
abbrev StatusBuffer := Vector Byte 17

/-- The pointer `get_efi_status_string` returns: a literal, or the shared buffer. -/
inductive StatusString where
  | literal (name : String)
  | buffer
deriving DecidableEq

/-- The C string behind the pointer, up to its first NUL. -/
def StatusString.chars (buf : StatusBuffer) : StatusString → List Byte
  | .literal name => ascii name
  | .buffer => buf.toList.takeWhile (· ≠ 0)

/-- The loop over the digits returns at the end of its first round, with `i` 0. -/
def getEfiStatusString (buf : StatusBuffer) (status : EfiStatus) : StatusString × StatusBuffer :=
  match efiStatusNames.lookup status with
  | some name => (.literal name, buf)
  | none =>
    let buf := buf.set 16 0
    let digit := hexDigit ((status >>> (0 * 4) &&& 0xf).setWidth 8)
    (.buffer, buf.set (15 - 0) digit)

/-! ## check -/

def efiLightRed : UINTN := 0x0c
def efiLightGray : UINTN := 0x07

def check (buf : StatusBuffer) (status : EfiStatus) (name : String) (expected : EfiStatus) :
    Packer Unit :=
  if status ≠ expected then do
    let _ ← call (.setAttribute efiLightRed)
    let (expectedString, buf) := getEfiStatusString buf expected
    let (statusString, buf) := getEfiStatusString buf status
    print "[ERROR] check: %a failed, should be %a, but got %a\n"
      [.text (ascii name), .text (expectedString.chars buf), .text (statusString.chars buf)]
    let _ ← call (.setAttribute efiLightGray)
    halt
  else
    print "[INFO] check: %a success\n" [.text (ascii name)]

/-! ## exit_boot_services -/

def efiLoaderData : UINTN := 2

def getMemoryMap (vars : MemoryMapVars) (buffer : UINTN) : Packer (EfiStatus × MemoryMapVars) :=
  call (.getMemoryMap vars buffer)

def allocatePool (poolType size buffer : UINTN) : Packer (EfiStatus × UINTN) :=
  call (.allocatePool poolType size buffer)

/-- `exit_boot_services` up to its second `GetMemoryMap`: ask for the size of the
    map, add room for twenty descriptors, allocate the buffer.  `vars` are the
    static variables of core.c as the call finds them. -/
def prepareMemoryMap (buf : StatusBuffer) (vars : MemoryMapVars) :
    Packer (MemoryMapVars × UINTN) := do
  let (status, vars) ← getMemoryMap { vars with memoryMapSize := 0 } 0
  check buf status "GetMemoryMap (1st call)" efiBufferTooSmall
  print "[INFO] exit_boot_services: memory_map_size = %ld\n" [.number vars.memoryMapSize]
  let vars := { vars with memoryMapSize := vars.memoryMapSize + 20 * vars.descSize }
  let (_, memoryMapDesc) ← allocatePool efiLoaderData vars.memoryMapSize 0
  if memoryMapDesc = 0 then do
    print "[ERROR] exit_boot_services: AllocatePool failed !!!\n" []
    halt
  else
    return (vars, memoryMapDesc)

/-- The last two calls of `exit_boot_services`. -/
def exitWithMap (imageHandle : UINTN) (vars : MemoryMapVars) (memoryMapDesc : UINTN) :
    Packer EfiStatus := do
  let (_, vars) ← getMemoryMap vars memoryMapDesc
  call (.exitBootServices imageHandle vars.mapKey)

def exitBootServices (buf : StatusBuffer) (vars : MemoryMapVars) (imageHandle : UINTN) :
    Packer EfiStatus := do
  let (vars, memoryMapDesc) ← prepareMemoryMap buf vars
  exitWithMap imageHandle vars memoryMapDesc

/-! ## What the loops do -/

variable {σ : Type} {firmware : Firmware σ}

theorem exec_printStr (arch : Arch) (str : List Byte) (world : World σ) :
    exec (machine firmware) (printStr (some arch) str) world =
      .returned () (world.logChars str) := by
  induction str generalizing world with
  | nil =>
    rw [World.logChars_nil]
    rfl
  | cons char rest inductionHypothesis =>
    rw [← World.log_logChars, ← inductionHypothesis]
    rfl

@[simp] theorem wp_printStr (arch : Arch) (str : List Byte) (post : Unit → World σ → Prop)
    (world : World σ) :
    wp (machine firmware) (printStr (some arch) str) post world ↔
      post () (world.logChars str) := by
  rw [wp, exec_printStr]

@[simp] theorem wp_memcpy2 (dest src : UINTN) (n : Int32) (post : Unit → World σ → Prop)
    (world : World σ) :
    wp (machine firmware) (memcpy2 dest src n) post world ↔
      post () (world.storeAll (copyUpLog world.memory dest src n.toInt.toNat)) := by
  have rounds : ∀ (count first : Nat) (world : World σ),
      wp (machine firmware)
          (repeatFrom (fun i => do
            let byte ← load (src + BitVec.ofNat 64 i)
            store (dest + BitVec.ofNat 64 i) byte) count first) post world ↔
        post () (world.storeAll (copyUpLog world.memory (dest + BitVec.ofNat 64 first)
          (src + BitVec.ofNat 64 first) count)) := by
    intro count
    induction count with
    | zero => simp [repeatFrom, copyUpLog]
    | succ count inductionHypothesis =>
      intro first world
      simp only [repeatFrom, wp_bind, wp_load, wp_store, inductionHypothesis, copyUpLog,
        World.store_storeAll, World.store_memory, BitVec.ofNat_add, BitVec.add_assoc,
        BitVec.ofNat_eq_ofNat]
  have started := rounds n.toInt.toNat 0 world
  simp only [BitVec.add_zero] at started
  exact started

@[simp] theorem wp_memset2 (dest : UINTN) (val n : Int32) (post : Unit → World σ → Prop)
    (world : World σ) :
    wp (machine firmware) (memset2 dest val n) post world ↔
      post () (world.storeAll
        (writeLog dest (List.replicate n.toInt.toNat (val.setWidth 8)))) := by
  have rounds : ∀ (count first : Nat) (world : World σ),
      wp (machine firmware)
          (repeatFrom (fun i => store (dest + BitVec.ofNat 64 i) (val.setWidth 8)) count first)
          post world ↔
        post () (world.storeAll (writeLog (dest + BitVec.ofNat 64 first)
          (List.replicate count (val.setWidth 8)))) := by
    intro count
    induction count with
    | zero => simp [repeatFrom, writeLog]
    | succ count inductionHypothesis =>
      intro first world
      simp only [repeatFrom, wp_bind, wp_store, inductionHypothesis, writeLog,
        List.replicate_succ, World.store_storeAll, BitVec.ofNat_add, BitVec.add_assoc,
        BitVec.ofNat_eq_ofNat]
  have started := rounds n.toInt.toNat 0 world
  simp only [BitVec.add_zero] at started
  exact started

section Issues

variable {allowed : Op → Prop}

theorem forInt_issues {body : Nat → Packer Unit} {n : Int32}
    (round : ∀ i < n.toInt.toNat, Issues allowed (body i)) : Issues allowed (forInt n body) :=
  issues_repeatFrom fun i _ bound => round i (by omega)

theorem memcpy2_issues (loads : ∀ address, allowed (.load address))
    (stores : ∀ address byte, allowed (.store address byte)) (dest src : UINTN) (n : Int32) :
    Issues allowed (memcpy2 dest src n) :=
  forInt_issues fun _ _ => issues_bind (issues_load.mpr (loads _)) fun _ =>
    issues_store.mpr (stores _ _)

theorem memset2_issues (stores : ∀ address byte, allowed (.store address byte)) (dest : UINTN)
    (val n : Int32) : Issues allowed (memset2 dest val n) :=
  forInt_issues fun _ _ => issues_store.mpr (stores _ _)

theorem printChars_issues {c : UINTN} {n : Int32}
    (loads : ∀ k < n.toInt.toNat, allowed (.load (c + BitVec.ofNat 64 k)))
    (prints : ∀ args, allowed (.service (.print "%c" args))) : Issues allowed (printChars c n) :=
  forInt_issues fun k bound =>
    issues_bind (issues_load.mpr (loads k bound)) fun _ => issues_print.mpr (prints _)

theorem printStr_issues (chars : ∀ char, allowed (.putChar char)) (archOps : Option Arch)
    (str : List Byte) : Issues allowed (printStr archOps str) := by
  apply issues_forEach
  intro char
  cases archOps with
  | none => trivial
  | some arch => exact issues_putChar.mpr (chars char)

end Issues

attribute [irreducible] memcpy2 memset2

/-! ## What exit_boot_services does before it has its buffer -/

@[simp] theorem wp_halt {α : Type} (post : α → World σ → Prop) (world : World σ) :
    wp (machine firmware) halt post world ↔ False := Iff.rfl

theorem check_expected (buf : StatusBuffer) (status : EfiStatus) (name : String) :
    check buf status name status =
      print "[INFO] check: %a success\n" [.text (ascii name)] :=
  if_neg (not_not.mpr rfl)

/-- The error branch ends in `halt`, so it meets no postcondition. -/
@[simp] theorem wp_check (buf : StatusBuffer) (status : EfiStatus) (name : String)
    (expected : EfiStatus) (post : Unit → World σ → Prop) (world : World σ) :
    wp (machine firmware) (check buf status name expected) post world ↔
      status = expected ∧
        post () (world.serve firmware
          (.print "[INFO] check: %a success\n" [.text (ascii name)])) := by
  unfold check
  by_cases met : status = expected
  · rw [if_neg (not_not.mpr met), wp_print]
    exact (and_iff_right met).symm
  · rw [if_pos met]
    exact (iff_false_right fun both => met both.1).mpr fun halted => halted

@[simp] theorem wp_getMemoryMap (vars : MemoryMapVars) (buffer : UINTN)
    (post : EfiStatus × MemoryMapVars → World σ → Prop) (world : World σ) :
    wp (machine firmware) (getMemoryMap vars buffer) post world ↔
      post (firmware (.getMemoryMap vars buffer) world.firmware world.memory).1
        (world.serve firmware (.getMemoryMap vars buffer)) := Iff.rfl

@[simp] theorem wp_allocatePool (poolType size buffer : UINTN)
    (post : EfiStatus × UINTN → World σ → Prop) (world : World σ) :
    wp (machine firmware) (allocatePool poolType size buffer) post world ↔
      post (firmware (.allocatePool poolType size buffer) world.firmware world.memory).1
        (world.serve firmware (.allocatePool poolType size buffer)) := Iff.rfl

section Preparation

variable (firmware) (vars : MemoryMapVars) (world : World σ)

/-- What the first `GetMemoryMap` answers. -/
def sizeAnswer : EfiStatus × MemoryMapVars :=
  (firmware (.getMemoryMap { vars with memoryMapSize := 0 } 0) world.firmware world.memory).1

/-- The variables with room for twenty more descriptors. -/
def sizedVars : MemoryMapVars :=
  let answered := (sizeAnswer firmware vars world).2
  { answered with memoryMapSize := answered.memoryMapSize + 20 * answered.descSize }

/-- The world in which the pool is asked for the buffer. -/
def beforePool : World σ :=
  let answered := world.serve firmware (.getMemoryMap { vars with memoryMapSize := 0 } 0)
  let checked := answered.serve firmware
    (.print "[INFO] check: %a success\n" [.text (ascii "GetMemoryMap (1st call)")])
  checked.serve firmware
    (.print "[INFO] exit_boot_services: memory_map_size = %ld\n"
      [.number (sizeAnswer firmware vars world).2.memoryMapSize])

def poolRequest : Service :=
  .allocatePool efiLoaderData (sizedVars firmware vars world).memoryMapSize 0

/-- What `AllocatePool` answers. -/
def poolAnswer : EfiStatus × UINTN :=
  let asked := beforePool firmware vars world
  (firmware (.allocatePool efiLoaderData (sizedVars firmware vars world).memoryMapSize 0)
    asked.firmware asked.memory).1

end Preparation

theorem wp_prepareMemoryMap (buf : StatusBuffer) (vars : MemoryMapVars)
    (post : MemoryMapVars × UINTN → World σ → Prop) (world : World σ) :
    wp (machine firmware) (prepareMemoryMap buf vars) post world ↔
      (sizeAnswer firmware vars world).1 = efiBufferTooSmall ∧
        (poolAnswer firmware vars world).2 ≠ 0 ∧
        post (sizedVars firmware vars world, (poolAnswer firmware vars world).2)
          ((beforePool firmware vars world).serve firmware (poolRequest firmware vars world)) := by
  rw [prepareMemoryMap, wp_bind, wp_getMemoryMap]
  change wp _ (check buf (sizeAnswer firmware vars world).1 _ _ >>= _) _ _ ↔ _
  rw [wp_bind, wp_check, wp_bind, wp_print, wp_bind, wp_allocatePool]
  refine and_congr_right fun _ => ?_
  change wp _ (if (poolAnswer firmware vars world).2 = 0 then _ else _) _ _ ↔ _
  by_cases null : (poolAnswer firmware vars world).2 = 0
  · rw [if_pos null]
    exact (iff_false_right fun both => both.1 null).mpr fun halted => halted
  · rw [if_neg null]
    exact (and_iff_right null).symm

theorem prepareMemoryMap_returned {buf : StatusBuffer} {vars : MemoryMapVars} {world : World σ}
    {prepared : MemoryMapVars × UINTN} {reached : World σ}
    (returned : exec (machine firmware) (prepareMemoryMap buf vars) world =
      .returned prepared reached) :
    (sizeAnswer firmware vars world).1 = efiBufferTooSmall ∧
      (poolAnswer firmware vars world).2 ≠ 0 ∧
      prepared = (sizedVars firmware vars world, (poolAnswer firmware vars world).2) ∧
      reached = (beforePool firmware vars world).serve firmware (poolRequest firmware vars world) := by
  have correct : wp (machine firmware) (prepareMemoryMap buf vars)
      (fun value after => prepared = value ∧ reached = after) world :=
    wp_of_returned returned ⟨rfl, rfl⟩
  exact (wp_prepareMemoryMap buf vars _ world).mp correct

/-- What is safe of every request is safe of the allocation. -/
theorem always_prepareMemoryMap_pool {safe : Op → World σ → Prop} {buf : StatusBuffer}
    {vars : MemoryMapVars} {world : World σ}
    (always : Always (machine firmware) safe (prepareMemoryMap buf vars) world)
    (short : (sizeAnswer firmware vars world).1 = efiBufferTooSmall) :
    safe (.service (poolRequest firmware vars world)) (beforePool firmware vars world) := by
  obtain ⟨-, checks⟩ := always
  change Always _ _ (check buf (sizeAnswer firmware vars world).1 _ _ >>= _) _ at checks
  rw [short, check_expected] at checks
  obtain ⟨-, -, asked, -⟩ := checks
  exact asked

/-- Where it gets a buffer, it asks for the size of the map and for the buffer, and prints two
    lines. -/
theorem always_prepareMemoryMap {safe : Op → World σ → Prop} {buf : StatusBuffer}
    {vars : MemoryMapVars} {world : World σ}
    (short : (sizeAnswer firmware vars world).1 = efiBufferTooSmall)
    (nonNull : (poolAnswer firmware vars world).2 ≠ 0)
    (prints : ∀ format args world, safe (.service (.print format args)) world)
    (sizes : safe (.service (.getMemoryMap { vars with memoryMapSize := 0 } 0)) world)
    (pools : safe (.service (poolRequest firmware vars world)) (beforePool firmware vars world)) :
    Always (machine firmware) safe (prepareMemoryMap buf vars) world := by
  refine ⟨sizes, ?_⟩
  change Always _ _ (check buf (sizeAnswer firmware vars world).1 _ _ >>= _) _
  rw [short, check_expected]
  refine ⟨prints _ _ _, prints _ _ _, pools, ?_⟩
  change Always _ _ (if (poolAnswer firmware vars world).2 = 0 then _ else _) _
  rw [if_neg nonNull]
  trivial

/-! ## What its last two calls do -/

section Exit

variable (firmware)

/-- What the second `GetMemoryMap` answers. -/
def mapAnswer (vars : MemoryMapVars) (memoryMapDesc : UINTN) (world : World σ) :
    EfiStatus × MemoryMapVars :=
  (firmware (.getMemoryMap vars memoryMapDesc) world.firmware world.memory).1

/-- What `ExitBootServices` answers right after it. -/
def exitStatus (imageHandle : UINTN) (vars : MemoryMapVars) (memoryMapDesc : UINTN)
    (world : World σ) : EfiStatus :=
  let asked := world.serve firmware (.getMemoryMap vars memoryMapDesc)
  (firmware (.exitBootServices imageHandle (mapAnswer firmware vars memoryMapDesc world).2.mapKey)
    asked.firmware asked.memory).1

/-- The world the two calls leave. -/
def afterExit (imageHandle : UINTN) (vars : MemoryMapVars) (memoryMapDesc : UINTN)
    (world : World σ) : World σ :=
  (world.serve firmware (.getMemoryMap vars memoryMapDesc)).serve firmware
    (.exitBootServices imageHandle (mapAnswer firmware vars memoryMapDesc world).2.mapKey)

theorem exec_exitWithMap (imageHandle : UINTN) (vars : MemoryMapVars) (memoryMapDesc : UINTN)
    (world : World σ) :
    exec (machine firmware) (exitWithMap imageHandle vars memoryMapDesc) world =
      .returned (exitStatus firmware imageHandle vars memoryMapDesc world)
        (afterExit firmware imageHandle vars memoryMapDesc world) := rfl

theorem afterExit_trace (imageHandle : UINTN) (vars : MemoryMapVars) (memoryMapDesc : UINTN)
    (world : World σ) :
    (afterExit firmware imageHandle vars memoryMapDesc world).trace =
      world.trace ++
        [.service (.getMemoryMap vars memoryMapDesc) (mapAnswer firmware vars memoryMapDesc world),
          .service
            (.exitBootServices imageHandle
              (mapAnswer firmware vars memoryMapDesc world).2.mapKey)
            (exitStatus firmware imageHandle vars memoryMapDesc world)] := by
  rw [afterExit, World.serve_trace, World.serve_trace, List.append_assoc]
  rfl

end Exit

end HvisorUefiPacker
