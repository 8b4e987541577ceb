import HvisorUefiPacker.Acpi
import HvisorUefiPacker.Library.Rows

/-! # The AML dump

What `parse_aml` puts on the serial line is the table in rows of 32 bytes, each
byte as two hexadecimal digits, and the table can be read back from it.
-/

namespace HvisorUefiPacker

open Interaction Interaction.Program ByteMemory Rows

/-! ## Lines of hexadecimal digits -/

/-- The digits, each at its value. -/
def hexDigits : List Byte := ascii "0123456789ABCDEF"

/-- A byte as two digits, the high one first. -/
def hexByte (byte : Byte) : List Byte :=
  [hexDigits.getD (byte.toNat / 16) 0, hexDigits.getD (byte.toNat % 16) 0]

def hexLine (bytes : List Byte) : List Byte := line hexByte (ascii "\n\r") bytes

def hexDump (bytes : List Byte) : List Byte := (rows 32 bytes).flatMap hexLine

/-! ## Reading a dump back -/

def digitPairs : List Byte → List Byte
  | high :: low :: rest =>
    BitVec.ofNat 8 (16 * hexDigits.idxOf high + hexDigits.idxOf low) :: digitPairs rest
  | _ => []

/-- The bytes a dump shows; what is no digit only lays them out. -/
def readDump (dump : List Byte) : List Byte :=
  digitPairs (dump.filter fun char => decide (char ∈ hexDigits))

theorem filter_hexByte (byte : Byte) :
    (hexByte byte).filter (fun char => decide (char ∈ hexDigits)) = hexByte byte := by
  revert byte
  decide +kernel

theorem digitPairs_hexByte (byte : Byte) (rest : List Byte) :
    digitPairs (hexByte byte ++ rest) = byte :: digitPairs rest := by
  have pair : ∀ byte : Byte, BitVec.ofNat 8
      (16 * hexDigits.idxOf (hexDigits.getD (byte.toNat / 16) 0) +
        hexDigits.idxOf (hexDigits.getD (byte.toNat % 16) 0)) = byte := by
    decide +kernel
  exact congrArg (· :: digitPairs rest) (pair byte)

theorem digitPairs_flatMap (bytes : List Byte) : digitPairs (bytes.flatMap hexByte) = bytes := by
  induction bytes with
  | nil => rfl
  | cons byte bytes inductionHypothesis =>
    rw [List.flatMap_cons, digitPairs_hexByte, inductionHypothesis]

/-- Only the digits of a line are read. -/
theorem filter_hexLine (bytes : List Byte) :
    (hexLine bytes).filter (fun char => decide (char ∈ hexDigits)) = bytes.flatMap hexByte := by
  rw [hexLine, line, List.filter_append]
  have ending : (ascii "\n\r").filter (fun char => decide (char ∈ hexDigits)) = [] := by
    decide +kernel
  rw [ending, List.append_nil]
  induction bytes with
  | nil => rfl
  | cons byte bytes inductionHypothesis =>
    rw [List.flatMap_cons, List.filter_append, filter_hexByte, inductionHypothesis]

theorem readDump_lines (lines : List (List Byte)) :
    readDump (lines.flatMap hexLine) = lines.flatten := by
  have digits : (lines.flatMap hexLine).filter (fun char => decide (char ∈ hexDigits)) =
      lines.flatten.flatMap hexByte := by
    induction lines with
    | nil => rfl
    | cons bytes lines inductionHypothesis =>
      rw [List.flatMap_cons, List.filter_append, filter_hexLine, inductionHypothesis,
        List.flatten_cons, List.flatMap_append]
  rw [readDump, digits, digitPairs_flatMap]

theorem readDump_hexDump (bytes : List Byte) : readDump (hexDump bytes) = bytes := by
  rw [hexDump, readDump_lines, flatten_rows (by decide)]

/-! ## What parse_aml prints -/

variable {σ : Type} {firmware : Firmware σ}

theorem hexDigit_nibbles (byte : Byte) :
    [hexDigit (byte >>> 4), hexDigit (byte &&& 0xf)] = hexByte byte := by
  revert byte
  decide +kernel

@[simp] theorem wp_printHex (arch : Arch) (n : UINT8) (post : Unit → World σ → Prop)
    (world : World σ) :
    wp (machine firmware) (printHex (some arch) n) post world ↔
      post () (world.logChars (hexByte n)) := by
  rw [← hexDigit_nibbles, ← World.log_logChars, ← World.log_logChars, World.logChars_nil]
  rfl

theorem wp_lineEnd (arch : Arch) (ends : Prop) [Decidable ends] (post : Unit → World σ → Prop)
    (world : World σ) :
    wp (machine firmware)
        (if ends then printStr (some arch) (ascii "\n\r") else pure ()) post world ↔
      post () (world.logChars (if ends then ascii "\n\r" else [])) := by
  by_cases isEnd : ends
  · rw [if_pos isEnd, if_pos isEnd, wp_printStr]
  · rw [if_neg isEnd, if_neg isEnd, World.logChars_nil]
    rfl

/-- The loop: after each round the bytes so far are written, full rows with their ends. -/
theorem wp_hexRounds (arch : Arch) {aml : UINTN} {bytes : List Byte} {world : World σ}
    (table : Holds world.memory aml bytes) :
    wp (machine firmware)
      (repeatFrom (fun i => do
        let byte ← load (aml + BitVec.ofNat 64 i)
        printHex (some arch) byte
        if (i + 1) % 32 = 0 then
          printStr (some arch) (ascii "\n\r")
        else
          pure ()) bytes.length 0)
      (fun _ after =>
        after = world.logChars (written hexByte (ascii "\n\r") 32 bytes bytes.length)) world := by
  apply wp_mono (wp_repeatFrom _
    (fun i after => after = world.logChars (written hexByte (ascii "\n\r") 32 bytes i))
    bytes.length 0 world ?_ ?_)
  · rintro _ after rfl
    rw [Nat.zero_add]
  · rintro i _ - inside rfl
    rw [Nat.zero_add] at inside
    have found : bytes[i]? = some bytes[i] := List.getElem?_eq_getElem inside
    rw [wp_bind, wp_load, World.logChars_memory, table.cell found, wp_bind, wp_printHex, wp_lineEnd,
      written_succ _ _ found]
    simp only [World.logChars_logChars, List.append_assoc]
  · rw [written_zero, World.logChars_nil]

/-- The characters of a whole dump, behind the banner. -/
theorem wp_parseAml_dump (arch : Arch) {aml : UINTN} {bytes : List Byte} {world : World σ}
    (nonnull : aml ≠ 0) (nonempty : 0 < bytes.length) (fits : bytes.length < 2 ^ 31)
    (table : Holds world.memory aml bytes) :
    wp (machine firmware) (parseAml (some arch) aml (BitVec.ofNat 32 bytes.length))
      (fun _ after => after =
        (world.log (.enter (.parseAml aml (BitVec.ofNat 32 bytes.length)))).logChars
          (ascii "[INFO] parse_aml: dumping AML code to UART:\n" ++ hexDump bytes)) world := by
  have size : (BitVec.ofNat 32 bytes.length).toInt = bytes.length := by
    rw [BitVec.toInt_ofNat', Int.bmod_eq_of_le] <;> omega
  have proceeds : ¬ (aml = 0 ∨ (BitVec.ofNat 32 bytes.length).toInt ≤ 0) := by
    rintro (null | empty)
    · exact nonnull null
    · rw [size] at empty
      omega
  have partialRow : ((bytes.length : Int) % 32 ≠ 0) ↔ bytes.length % 32 ≠ 0 := by omega
  rw [parseAml, wp_bind, wp_enter, if_neg proceeds, wp_bind, wp_printStr, wp_bind, forInt, size,
    Int.toNat_natCast]
  apply wp_mono (wp_hexRounds arch (by exact table))
  rintro _ _ rfl
  rw [wp_lineEnd, World.logChars_logChars, World.logChars_logChars]
  simp only [partialRow]
  rw [written_all _ _ (by decide)]
  rfl

/-! ## The dump is lossless -/

/-- Every table is dumped in rows of 32 bytes, each row ended, and is determined by its dump. -/
theorem parseAml_lossless (firmware : Firmware σ) (arch : Arch) {aml : UINTN} {bytes : List Byte}
    {world : World σ} (nonnull : aml ≠ 0) (nonempty : 0 < bytes.length)
    (fits : bytes.length < 2 ^ 31) (table : Holds world.memory aml bytes) :
    exec (machine firmware) (parseAml (some arch) aml (BitVec.ofNat 32 bytes.length)) world =
        .returned () ((world.log (.enter (.parseAml aml (BitVec.ofNat 32 bytes.length)))).logChars
          (ascii "[INFO] parse_aml: dumping AML code to UART:\n" ++ hexDump bytes)) ∧
      (rows 32 bytes).flatten = bytes ∧
      (rows 32 bytes).length = bytes.length ⌈/⌉ 32 ∧
      (∀ bytes' ∈ (rows 32 bytes).dropLast, bytes'.length = 32) ∧
      (rows 32 bytes).getLast?.map List.length =
        some (bytes.length - 32 * (bytes.length ⌈/⌉ 32 - 1)) ∧
      readDump (hexDump bytes) = bytes ∧
      ∀ other : List Byte, other ≠ bytes → hexDump other ≠ hexDump bytes := by
  refine ⟨?_, flatten_rows (by decide) bytes, rows_length bytes,
    fun _ => length_of_mem_dropLast (by decide), getLast?_rows (by decide) nonempty,
    readDump_hexDump bytes, ?_⟩
  · obtain ⟨_, _, returned, rfl⟩ :=
      wp_iff_exec.mp (@wp_parseAml_dump σ firmware arch aml bytes world nonnull nonempty fits table)
    exact returned
  · intro other different same
    apply different
    rw [← readDump_hexDump other, same, readDump_hexDump]

/-- One byte more than a line holds. -/
def countingTable : List Byte := (List.range 33).map fun i => BitVec.ofNat 8 (0xf0 + i)

theorem parseAml_lossless_two_lines :
    (rows 32 countingTable).length = 2 ∧
      exec (machine (plainFirmware 0 0)) (parseAml (some .aarch64) 0x10f0 33)
          (World.initial (fun address => address.setWidth 8) ()) =
        .returned ()
          (((World.initial (fun address => address.setWidth 8) ()).log
            (.enter (.parseAml 0x10f0 33))).logChars
              (ascii "[INFO] parse_aml: dumping AML code to UART:\n" ++ hexDump countingTable)) ∧
      readDump (hexDump countingTable) = countingTable := by
  have table : Holds (World.initial (fun address : UINTN => address.setWidth 8) ()).memory 0x10f0
      countingTable := by
    unfold Holds
    decide +kernel
  have lossless :=
    parseAml_lossless (plainFirmware 0 0) .aarch64 (by decide) (by decide) (by decide) table
  exact ⟨by decide, lossless.1, lossless.2.2.2.2.2.1⟩

end HvisorUefiPacker
