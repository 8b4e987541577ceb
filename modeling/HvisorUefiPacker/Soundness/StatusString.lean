import HvisorUefiPacker.Main
import HvisorUefiPacker.Soundness.AmlDump

/-! # The message of an unknown status

`get_efi_status_string` returns from its loop over the digits in the first round,
so of its static buffer only the last digit is ever written.

* `Unwritten` is what every call keeps of the buffer, and so every history of calls.
* `getEfiStatusString_unreadable`: no unknown status can be read back, and any two
  of them give the same string.
* `check_names_nothing`: the line `check` prints before it halts shows nothing.
-/

namespace HvisorUefiPacker

open Interaction Interaction.Program

/-- A status that the `switch` of `get_efi_status_string` does not name. -/
def UnknownStatus (status : EfiStatus) : Prop := ∀ entry ∈ efiStatusNames, entry.1 ≠ status

instance (status : EfiStatus) : Decidable (UnknownStatus status) :=
  inferInstanceAs (Decidable (∀ entry ∈ efiStatusNames, entry.1 ≠ status))

/-- The sixteen uppercase digits of a status, the highest first. -/
def hexStatus (status : EfiStatus) : List Byte :=
  (List.range 16).map fun i => hexDigits.getD (status.toNat / 16 ^ (15 - i) % 16) 0

/-- The static buffer after calls of `get_efi_status_string`, the first one first. -/
def bufferAfter (calls : List EfiStatus) : StatusBuffer :=
  calls.foldl (fun buf status => (getEfiStatusString buf status).2) staticBuffer

/-- The C string a call returns when these calls were made before. -/
def statusMessage (calls : List EfiStatus) (status : EfiStatus) : List Byte :=
  let (string, buf) := getEfiStatusString (bufferAfter calls) status
  string.chars buf

/-! ## The buffer -/

/-- No call has written the first digit. -/
def Unwritten (buf : StatusBuffer) : Prop := buf[0] = 0

theorem unknown_lookup {status : EfiStatus} (unknown : UnknownStatus status) :
    efiStatusNames.lookup status = none :=
  List.lookup_eq_none_iff.mpr fun entry member =>
    bne_iff_ne.mpr (unknown entry member).symm

/-- One call leaves the first digit as it is, whatever the status. -/
theorem Unwritten.step {buf : StatusBuffer} (unwritten : Unwritten buf) (status : EfiStatus) :
    Unwritten (getEfiStatusString buf status).2 := by
  unfold getEfiStatusString
  cases efiStatusNames.lookup status with
  | some name => exact unwritten
  | none => simpa [Unwritten] using unwritten

theorem Unwritten.run {buf : StatusBuffer} (unwritten : Unwritten buf) (calls : List EfiStatus) :
    Unwritten (calls.foldl (fun buf status => (getEfiStatusString buf status).2) buf) := by
  induction calls generalizing buf with
  | nil => exact unwritten
  | cons status calls inductionHypothesis => exact inductionHypothesis (unwritten.step status)

theorem bufferAfter_unwritten (calls : List EfiStatus) : Unwritten (bufferAfter calls) := by
  have static : Unwritten staticBuffer := rfl
  exact static.run calls

/-- The C string in the buffer ends where it starts. -/
theorem Unwritten.chars_buffer {buf : StatusBuffer} (unwritten : Unwritten buf) :
    StatusString.buffer.chars buf = [] := by
  obtain ⟨first, rest, split⟩ := List.exists_cons_of_length_pos
    (show 0 < buf.toList.length by rw [Vector.length_toList]; decide)
  have zero : first = 0 := by
    have head : buf.toList[0]? = some buf[0] := by simp
    rw [split, show buf[0] = 0 from unwritten] at head
    exact Option.some.inj head
  rw [StatusString.chars, split, zero]
  rfl

theorem getEfiStatusString_unknown {status : EfiStatus} (unknown : UnknownStatus status)
    (buf : StatusBuffer) : (getEfiStatusString buf status).1 = .buffer := by
  rw [getEfiStatusString, unknown_lookup unknown]

/-! ## The messages -/

theorem statusMessage_empty (calls : List EfiStatus) {status : EfiStatus}
    (unknown : UnknownStatus status) : statusMessage calls status = [] := by
  have unwritten := (bufferAfter_unwritten calls).step status
  change (getEfiStatusString (bufferAfter calls) status).1.chars _ = []
  rw [getEfiStatusString_unknown unknown]
  exact unwritten.chars_buffer

/-- When `check` gets an unknown status, the line it prints before it halts shows nothing
    in its place. -/
theorem check_names_nothing {σ : Type} (firmware : Firmware σ) (calls : List EfiStatus)
    {status expected : EfiStatus} (unknown : UnknownStatus status) (fails : status ≠ expected)
    (name : String) (world : World σ) :
    ∃ expectedText,
      .service (.print "[ERROR] check: %a failed, should be %a, but got %a\n"
          [.text (ascii name), .text expectedText, .text []]) () ∈
        (exec (machine firmware) (check (bufferAfter calls) status name expected)
          world).state.trace := by
  have unwritten := ((bufferAfter_unwritten calls).step expected).step status
  have returned :=
    getEfiStatusString_unknown unknown (getEfiStatusString (bufferAfter calls) expected).2
  rw [check, if_pos fails]
  refine ⟨(getEfiStatusString (bufferAfter calls) expected).1.chars
    (getEfiStatusString (getEfiStatusString (bufferAfter calls) expected).2 status).2, ?_⟩
  rw [← unwritten.chars_buffer, ← returned]
  change _ ∈ (World.serve firmware _ (World.serve firmware _
    (World.serve firmware _ (World.serve firmware _ world)))).trace
  simp only [World.serve_trace, List.append_assoc, List.mem_append, List.mem_singleton]
  exact .inr (.inr (.inl rfl))

/-- Whatever calls were made before, no unknown status can be read back from its
    message, nor told from another one. -/
theorem getEfiStatusString_unreadable (calls : List EfiStatus) {status : EfiStatus}
    (unknown : UnknownStatus status) :
    statusMessage calls status ≠ hexStatus status ∧
      ∀ otherCalls other, UnknownStatus other →
        statusMessage otherCalls other = statusMessage calls status := by
  rw [statusMessage_empty calls unknown]
  refine ⟨fun same => ?_, fun otherCalls other otherUnknown => ?_⟩
  · have length := congrArg List.length same
    simp [hexStatus] at length
  · exact statusMessage_empty otherCalls otherUnknown

theorem getEfiStatusString_unreadable_warning :
    statusMessage [efiErr 99] 5 ≠ hexStatus 5 ∧
      statusMessage [] 6 = statusMessage [efiErr 99] 5 := by
  have unreadable := getEfiStatusString_unreadable [efiErr 99] (show UnknownStatus 5 by decide)
  exact ⟨unreadable.1, unreadable.2 [] 6 (by decide)⟩

/-- An error code without a name, in the first call. -/
theorem statusMessage_misses_digits :
    UnknownStatus (efiErr 99) ∧ statusMessage [] (efiErr 99) = [] ∧
      hexStatus (efiErr 99) = ascii "8000000000000063" ∧
      statusMessage [] (efiErr 99) ≠ hexStatus (efiErr 99) := by
  decide +kernel

end HvisorUefiPacker
