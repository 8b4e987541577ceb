import HvisorUefiPacker.Soundness.AcpiDump

/-! # The scan of the XSDT

`find_fadt_in_xsdt` walks the entries of the XSDT up to a bound it computes from the
`Length` of the header.

* `XsdtReads` are the addresses it may read: the length, the entries inside the
  table, and the signatures of the tables they name.
* `findFadtInXsdt_scans_iff`: it stays with them, makes no more than `Length / 8`
  rounds and finds the first FADT exactly when the table is as long as its header.
  For a shorter one the bound wraps, and the first entry is read behind the table.
-/

namespace HvisorUefiPacker

open Interaction Interaction.Program ByteMemory

/-- What a scan of the XSDT may read. -/
inductive XsdtReads (memory : Mem) (xsdt : UINTN) : UINTN → Prop where
  | length {k : Nat} (bound : k < 4) : XsdtReads memory xsdt (xsdt + 4 + BitVec.ofNat 64 k)
  | entry {i k : Nat} (inside : 36 + 8 * (i + 1) ≤ (tableLength memory xsdt).toNat)
      (bound : k < 8) : XsdtReads memory xsdt (xsdtEntryAt xsdt i + BitVec.ofNat 64 k)
  | signature {i k : Nat} (inside : 36 + 8 * (i + 1) ≤ (tableLength memory xsdt).toNat)
      (bound : k < 4) :
      XsdtReads memory xsdt (word64 memory (xsdtEntryAt xsdt i) + BitVec.ofNat 64 k)

/-- A load reads one of the allowed addresses. -/
def Op.ReadsFrom (allowed : UINTN → Prop) : Op → Prop
  | .load address => allowed address
  | _ => True

variable {σ : Type} {firmware : Firmware σ}

/-- The scan stays inside the table, is over in time, and finds the first FADT. -/
structure ScansXsdt (firmware : Firmware σ) (xsdt : UINTN) (world : World σ) : Prop where
  reads : Always (machine firmware)
    (fun op _ => op.ReadsFrom (XsdtReads world.memory xsdt)) (findFadtInXsdt xsdt) world
  finds : wp (machine firmware) (findFadtInXsdt xsdt)
    (fun found after =>
      found = firstFadt world.memory (xsdtEntries world.memory xsdt) ∧
        scanRounds after.trace ≤
          scanRounds world.trace + (tableLength world.memory xsdt).toNat / 8) world

/-! ## Where it reads -/

section Reads

variable {allowed : UINTN → Prop}

theorem print_reads (format : String) (args : List PrintArg) :
    Issues (Op.ReadsFrom allowed) (print format args) := issues_print.mpr trivial

theorem always_load32 {α : Type} {next : UINT32 → Packer α} {address : UINTN} {world : World σ}
    (inside : ∀ k < 4, allowed (address + BitVec.ofNat 64 k)) :
    Always (machine firmware) (fun op _ => op.ReadsFrom allowed) (load32 address >>= next) world ↔
      Always (machine firmware) (fun op _ => op.ReadsFrom allowed)
        (next (word32 world.memory address)) world :=
  always_bind_of_returned
    (always_of_issues (load32_issues inside) (fun _ _ isAllowed => isAllowed) world) rfl

theorem always_load64 {α : Type} {next : UINTN → Packer α} {address : UINTN} {world : World σ}
    (inside : ∀ k < 8, allowed (address + BitVec.ofNat 64 k)) :
    Always (machine firmware) (fun op _ => op.ReadsFrom allowed) (load64 address >>= next) world ↔
      Always (machine firmware) (fun op _ => op.ReadsFrom allowed)
        (next (word64 world.memory address)) world :=
  always_bind_of_returned
    (always_of_issues (load64_issues inside) (fun _ _ isAllowed => isAllowed) world) rfl

/-- A part that reads where it may and only looks is only in the way. -/
theorem always_after (keeps : PrintKeepsMemory firmware) {α β : Type} {program : Packer α}
    {next : α → Packer β} {world : World σ}
    (reads : Issues (Op.ReadsFrom allowed) program) (looks : Issues Op.Looks program)
    (rest : ∀ value after, after.memory = world.memory →
      Always (machine firmware) (fun op _ => op.ReadsFrom allowed) (next value) after) :
    Always (machine firmware) (fun op _ => op.ReadsFrom allowed) (program >>= next) world := by
  apply always_bind_of_wp (always_of_issues reads (fun _ _ isAllowed => isAllowed) world)
    (wp_looks keeps looks world)
  intro value after looked
  exact rest value after looked.memory

/-- From round `i` on, every round reads the length, an entry inside the table, and the
    signature of the table it names. -/
theorem always_findFadtFuel (keeps : PrintKeepsMemory firmware) {memory : Mem} {xsdt : UINTN}
    (header : 36 ≤ (tableLength memory xsdt).toNat) {fuel i : Nat} {current : World σ}
    (same : current.memory = memory) :
    Always (machine firmware) (fun op _ => op.ReadsFrom (XsdtReads memory xsdt))
      (findFadtFuel xsdt fuel i) current := by
  have length : word32 memory (xsdt + 4) = tableLength memory xsdt := rfl
  induction fuel generalizing i current with
  | zero => trivial
  | succ fuel inductionHypothesis =>
    rw [findFadtFuel, length_offset, always_load32 fun k bound => .length bound, same, length,
      xsdtEntryCount_eq header]
    by_cases bound : i < ((tableLength memory xsdt).toNat - 36) / 8
    · have inside : 36 + 8 * (i + 1) ≤ (tableLength memory xsdt).toNat := by omega
      have signature : ∀ k < 4, XsdtReads memory xsdt
          (word64 memory (xsdtEntryAt xsdt i) + BitVec.ofNat 64 k) :=
        fun k small => .signature inside small
      rw [if_pos bound, always_load64 fun k small => .entry inside small, same]
      generalize word64 memory (xsdtEntryAt xsdt i) = entry at signature ⊢
      have print : ∀ format args, Issues Op.Looks (print format args) :=
        fun _ _ => issues_print.mpr trivial
      refine always_after keeps (print_reads _ _) (print _ _) fun _ first firstSame => ?_
      refine always_after keeps (print_reads _ _) (print _ _) fun _ second secondSame => ?_
      refine always_after keeps (printChars_issues signature fun _ => trivial)
        (issues_mono (plain_printChars _ _) fun _ => Op.Plain.looks) fun _ third thirdSame => ?_
      refine always_after keeps (print_reads _ _) (print _ _) fun _ fourth fourthSame => ?_
      refine always_after keeps (compareMem_issues signature)
        (issues_mono (plain_compareMem _ _) fun _ => Op.Plain.looks) fun order fifth fifthSame => ?_
      split
      · refine always_after keeps (print_reads _ _) (print _ _) fun _ _ _ => ?_
        exact always_after keeps (print_reads _ _) (print _ _) fun _ _ _ => trivial
      · apply inductionHypothesis
        rw [fifthSame, fourthSame, thirdSame, secondSame, firstSame, same]
    · rw [if_neg bound]
      trivial

/-- Below the size of the header the bound of the loop wraps to a huge number. -/
theorem xsdtEntryCount_pos {length : UINT32} (short : length.toNat < 36) :
    0 < xsdtEntryCount length := by
  rw [xsdtEntryCount, acpiTableHeader_size, BitVec.toNat_sub, BitVec.toNat_setWidth,
    BitVec.toNat_ofNat]
  omega

/-- A table that is shorter than its header has its first entry read all the same. -/
theorem not_scans_of_short {xsdt : UINTN} {world : World σ}
    (short : (tableLength world.memory xsdt).toNat < 36) : ¬ ScansXsdt firmware xsdt world := by
  intro scans
  have reads := scans.reads
  have length : word32 world.memory (xsdt + 4) = tableLength world.memory xsdt := rfl
  obtain ⟨fuel, enough⟩ : ∃ fuel, 2 ^ 61 = fuel + 1 := ⟨2 ^ 61 - 1, by omega⟩
  rw [findFadtInXsdt, enough, findFadtFuel, length_offset, always_load32 fun k bound => .length bound,
    length, if_pos (xsdtEntryCount_pos short)] at reads
  have first : XsdtReads world.memory xsdt (xsdt + 36 + BitVec.ofNat 64 (8 * 0)) := reads.1
  generalize address : xsdt + 36 + BitVec.ofNat 64 (8 * 0) = entry at first
  cases first with
  | @length k bound => bv_omega
  | entry inside bound => omega
  | signature inside bound => omega

end Reads

/-- The scan is as it should be exactly when the table is as long as its header. -/
theorem findFadtInXsdt_scans_iff (keeps : PrintKeepsMemory firmware) (xsdt : UINTN)
    (world : World σ) :
    ScansXsdt firmware xsdt world ↔ 36 ≤ (tableLength world.memory xsdt).toNat := by
  constructor
  · intro scans
    by_contra short
    exact not_scans_of_short (by omega) scans
  · intro header
    refine ⟨always_findFadtFuel keeps header rfl, ?_⟩
    apply wp_mono (wp_findFadtInXsdt keeps header)
    intro found after ⟨first, scanned⟩
    have rounds := scanned.rounds
    refine ⟨first, rounds.trans ?_⟩
    omega

/-- On the tables above, whose XSDT has one entry. -/
theorem findFadtInXsdt_scans_low :
    ScansXsdt (plainFirmware 0 efiSuccess) 0x2000 (World.initial lowTables ()) :=
  (findFadtInXsdt_scans_iff (plainFirmware_keeps 0 efiSuccess).print 0x2000 _).mpr (by decide)

/-- In a memory of zeros the `Length` is 0. -/
theorem findFadtInXsdt_reads_behind :
    ¬ ScansXsdt (plainFirmware 0 efiSuccess) 0x2000 (World.initial (sparseMemory 0 []) ()) :=
  not_scans_of_short (by decide)

end HvisorUefiPacker
