import HvisorUefiPacker.Parse

/-! # What parse_pe computes

`parse_pe` prints a lot; what it returns and what it stores is a function of the
memory it starts in.

* `SectionHeader` and the functions around it read the headers off a memory.
* `sectionsRun` and `parsePeRun` are that function: the value, and the log of the
  stores, oldest first.  `PePasses` says that every validation on the way passes.
* `wp_parsePe_verdict` is the refinement: for every firmware whose `Print` leaves
  memory alone, `parsePe` returns that value, has made exactly those stores, and has
  printed an error exactly when some validation fails.
-/

namespace HvisorUefiPacker

open Interaction Interaction.Program ByteMemory

/-! ## The headers, read off a memory -/

/-- What `load_section` uses of an `IMAGE_SECTION_HEADER`, and its virtual size. -/
structure SectionHeader where
  virtualSize : UINT32
  virtualAddress : UINT32
  sizeOfRawData : UINT32
  pointerToRawData : UINT32
deriving DecidableEq

/-- The section header at an address. -/
def sectionHeader (memory : Mem) (address : UINTN) : SectionHeader where
  virtualSize := word32 memory (address + 8)
  virtualAddress := word32 memory (address + 12)
  sizeOfRawData := word32 memory (address + 16)
  pointerToRawData := word32 memory (address + 20)

namespace SectionHeader

variable (header : SectionHeader) (start load size : UINTN)

/-- From the raw data in the file to the section's load address. -/
def move : Move 64 where
  dest := load + header.virtualAddress.setWidth 64
  src := start + header.pointerToRawData.setWidth 64
  length := header.sizeOfRawData.toNat

/-- The section as the image has it in memory. -/
def inMemory : Set UINTN :=
  range (load + header.virtualAddress.setWidth 64) header.virtualSize.toNat

instance (address : UINTN) : Decidable (address ∈ header.inMemory load) :=
  inferInstanceAs (Decidable (address ∈ range _ _))

/-- The bounds check of `load_section`, with its wrapping sums. -/
def Accepted : Prop :=
  start + header.pointerToRawData.setWidth 64 + header.sizeOfRawData.setWidth 64 ≤ start + size

instance : Decidable (header.Accepted start size) := inferInstanceAs (Decidable (_ ≤ _))

/-- The stores of its `CopyMem`. -/
def log (memory : Mem) : List (UINTN × Byte) :=
  copyLog memory (header.move start load).dest (header.move start load).src
    (header.sizeOfRawData.setWidth 64)

end SectionHeader

section Headers

variable (memory : Mem) (start : UINTN)

/-- `nt_header` -/
def ntHeaderOf : UINTN := start + (word32 memory (start + 60)).setWidth 64

def numberOfSectionsAt (ntHeader : UINTN) : Nat := (word16 memory (ntHeader + 6)).toNat

/-- `section_header` -/
def sectionTableOf : UINTN :=
  ntHeaderOf memory start + 24 + (word16 memory (ntHeaderOf memory start + 20)).setWidth 64

/-- `entry` -/
def entryOf (load : UINTN) : UINTN :=
  (word32 memory (ntHeaderOf memory start + 40)).setWidth 64 + load

end Headers

/-! ## The run as a function -/

/-- The section loop from round `i` on: whether it came to its end, and its stores. -/
def sectionsRunFuel (ntHeader table start load size : UINTN) :
    Nat → Nat → Mem → Bool × List (UINTN × Byte)
  | 0, _, _ => (true, [])
  | fuel + 1, i, memory =>
    if i < numberOfSectionsAt memory ntHeader then
      let header := sectionHeader memory (sectionHeaderAt table i)
      if header.Accepted start size then
        let log := header.log start load memory
        let rest := sectionsRunFuel ntHeader table start load size fuel (i + 1) (replay memory log)
        (rest.1, log ++ rest.2)
      else
        (false, [])
    else
      (true, [])

def sectionsRun (ntHeader table start load size : UINTN) (i : Nat) (memory : Mem) :
    Bool × List (UINTN × Byte) :=
  sectionsRunFuel ntHeader table start load size (65536 - i) i memory

/-- The value `parse_pe` returns and the stores it makes. -/
def parsePeRun (start load size : UINTN) (memory : Mem) : UINTN × List (UINTN × Byte) :=
  if word16 memory start = imageDosSignature ∧
      word32 memory (ntHeaderOf memory start) = imageNtSignature then
    let sections := sectionsRun (ntHeaderOf memory start) (sectionTableOf memory start) start load
      size 0 memory
    (if sections.1 then entryOf memory start load else 0, sections.2)
  else
    (0, [])

/-- Every validation of the run passes. -/
def PePasses (start load size : UINTN) (memory : Mem) : Prop :=
  word16 memory start = imageDosSignature ∧
    word32 memory (ntHeaderOf memory start) = imageNtSignature ∧
    (sectionsRun (ntHeaderOf memory start) (sectionTableOf memory start) start load size 0
      memory).1 = true

instance (start load size : UINTN) (memory : Mem) : Decidable (PePasses start load size memory) :=
  inferInstanceAs (Decidable (_ ∧ _ ∧ _))

/-! ## The program refines it -/

variable {σ : Type} {firmware : Firmware σ}

/-- From `before` to `after` the packer made the stores `log`, and nothing else
    touched memory. -/
def World.Stored (before after : World σ) (log : List (UINTN × Byte)) : Prop :=
  after.memory = replay before.memory log ∧ after.stores = before.stores ++ log

theorem World.Stored.refl (world : World σ) : world.Stored world [] := by
  simp [Stored, replay]

theorem World.Stored.trans {first second third : World σ} {early late : List (UINTN × Byte)}
    (left : first.Stored second early) (right : second.Stored third late) :
    first.Stored third (early ++ late) := by
  obtain ⟨earlyMemory, earlyStores⟩ := left
  obtain ⟨lateMemory, lateStores⟩ := right
  constructor
  · rw [lateMemory, earlyMemory, replay_append]
  · rw [lateStores, earlyStores, List.append_assoc]

theorem World.Stored.memory_eq {before after : World σ} (quiet : before.Stored after []) :
    after.memory = before.memory := quiet.1

theorem World.stored_storeAll (world : World σ) (log : List (UINTN × Byte)) :
    world.Stored (world.storeAll log) log := ⟨rfl, rfl⟩

/-- A program that stores nothing. -/
def Quiet (firmware : Firmware σ) {α : Type} (program : Packer α) : Prop :=
  ∀ world, wp (machine firmware) program (fun _ after => world.Stored after []) world

theorem Quiet.bind {α β : Type} {program : Packer α} {next : α → Packer β}
    (first : Quiet firmware program) (rest : ∀ value, Quiet firmware (next value)) :
    Quiet firmware (program >>= next) := by
  intro world
  rw [wp_bind]
  apply wp_mono (first world)
  intro value middle early
  apply wp_mono (rest value middle)
  intro _ after late
  exact early.trans late

/-- A quiet first part is only in the way. -/
theorem Quiet.then {α β : Type} {program : Packer α} {next : α → Packer β}
    {post : β → World σ → Prop} {world : World σ} (first : Quiet firmware program)
    (rest : ∀ value after, world.Stored after [] → wp (machine firmware) (next value) post after) :
    wp (machine firmware) (program >>= next) post world := by
  rw [wp_bind]
  exact wp_mono (first world) rest

theorem quiet_pure {α : Type} (value : α) : Quiet firmware (pure value : Packer α) :=
  fun world => World.Stored.refl world

theorem quiet_load (address : UINTN) : Quiet firmware (load address) :=
  fun world => World.Stored.refl world

theorem quiet_load32 (address : UINTN) : Quiet firmware (load32 address) :=
  fun world => World.Stored.refl world

/-! ### Reports of a failed validation -/

/-- What `parse_pe` prints when a validation fails. -/
def peErrors : List String :=
  ["[ERROR] parse_pe: invalid dos header: e_magic = 0x%x\n",
    "[ERROR] parse_pe: invalid nt header: Signature = 0x%x\n",
    "[ERROR] parse_pe: section end out of range\n"]

def Event.isPeError : Event → Bool
  | .service (.print format _) _ => decide (format ∈ peErrors)
  | _ => false

def peComplained (trace : List Event) : Bool := trace.any Event.isPeError

/-- The stores `log` were made from `before` to `after`, and a failed validation was
    reported in between if `failed`. -/
structure World.Judged (before after : World σ) (log : List (UINTN × Byte)) (failed : Bool) :
    Prop where
  stored : before.Stored after log
  complained : peComplained after.trace = (peComplained before.trace || failed)

theorem World.Judged.refl (world : World σ) : world.Judged world [] false :=
  ⟨.refl world, (Bool.or_false _).symm⟩

theorem World.Judged.trans {first second third : World σ} {early late : List (UINTN × Byte)}
    {failedEarly failedLate : Bool} (left : first.Judged second early failedEarly)
    (right : second.Judged third late failedLate) :
    first.Judged third (early ++ late) (failedEarly || failedLate) := by
  refine ⟨left.stored.trans right.stored, ?_⟩
  rw [right.complained, left.complained, Bool.or_assoc]

/-- Requests that report no failed validation. -/
def Op.Silent : Op → Prop := Op.Emits fun event => event.isPeError = false

theorem silent_load (address : UINTN) : Issues Op.Silent (load address) := issues_load.mpr trivial

theorem silent_load32 (address : UINTN) : Issues Op.Silent (load32 address) :=
  load32_issues fun _ _ => trivial

theorem silent_print {format : String} (other : format ∉ peErrors) (args : List PrintArg) :
    Issues Op.Silent (print format args) := issues_print.mpr fun _ => decide_eq_false other

theorem silent_printField {format : String} (other : format ∉ peErrors) (field : UINTN) :
    Issues Op.Silent (printField format field) :=
  issues_bind (silent_load32 _) fun _ => silent_print other _

theorem silent_sectionNameFrom (rounds : Nat) (name : UINTN) :
    Issues Op.Silent (sectionNameFrom rounds name) := by
  induction rounds generalizing name with
  | zero => trivial
  | succ rounds inductionHypothesis =>
    refine issues_bind (silent_load name) fun char => ?_
    split
    · trivial
    · exact issues_bind (inductionHypothesis (name + 1)) fun _ => trivial

theorem silent_printSectionInfo
    (sectionHeader sectionIndex sectionStart sectionSize sectionEnd sectionLoadAddr : UINTN) :
    Issues Op.Silent (printSectionInfo sectionHeader sectionIndex sectionStart sectionSize
      sectionEnd sectionLoadAddr) := by
  refine issues_bind (silent_print (by decide) _) fun _ => ?_
  refine issues_bind (silent_sectionNameFrom _ _) fun _ => ?_
  refine issues_bind (silent_print (by decide) _) fun _ => ?_
  iterate 3 refine issues_bind (silent_printField (by decide) _) fun _ => ?_
  iterate 3 refine issues_bind (silent_print (by decide) _) fun _ => ?_
  exact silent_print (by decide) _

theorem silent_printOptionalHeaderInfo (ntHeader : UINTN) :
    Issues Op.Silent (printOptionalHeaderInfo ntHeader) := by
  refine issues_bind (silent_print (by decide) _) fun _ => ?_
  iterate 5 refine issues_bind (silent_printField (by decide) _) fun _ => ?_
  exact silent_printField (by decide) _

/-- A first part that stores and reports nothing is only in the way. -/
theorem Quiet.thenJudged {α β : Type} {program : Packer α} {next : α → Packer β}
    {post : β → World σ → Prop} {world : World σ} (quiet : Quiet firmware program)
    (silent : Issues Op.Silent program)
    (rest : ∀ value after, world.Judged after [] false →
      wp (machine firmware) (next value) post after) :
    wp (machine firmware) (program >>= next) post world := by
  obtain ⟨value, after, returned, stored⟩ := wp_iff_exec.mp (quiet world)
  obtain ⟨events, trace, others⟩ := extends_of_issues firmware silent world
  rw [returned] at trace
  have noReport : events.any Event.isPeError = false :=
    List.any_eq_false.mpr fun event member => by rw [others event member]; exact Bool.false_ne_true
  rw [wp_bind]
  apply wp_of_returned returned
  apply rest value after ⟨stored, ?_⟩
  rw [show after.trace = world.trace ++ events from trace, peComplained, List.any_append, noReport]
  rfl

section Prints

variable (keeps : PrintKeepsMemory firmware)

include keeps

theorem quiet_print (format : String) (args : List PrintArg) :
    Quiet firmware (print format args) := by
  intro world
  rw [wp_print, World.Stored, serve_print_memory keeps]
  exact ⟨rfl, (List.append_nil _).symm⟩

theorem quiet_printField (format : String) (field : UINTN) :
    Quiet firmware (printField format field) :=
  (quiet_load32 field).bind fun _ => quiet_print keeps _ _

omit keeps in
theorem quiet_sectionNameFrom (rounds : Nat) (name : UINTN) :
    Quiet firmware (sectionNameFrom rounds name) := by
  induction rounds generalizing name with
  | zero => exact quiet_pure []
  | succ rounds inductionHypothesis =>
    refine (quiet_load name).bind fun char => ?_
    split
    · exact quiet_pure []
    · exact (inductionHypothesis (name + 1)).bind fun _ => quiet_pure _

theorem quiet_printSectionInfo
    (sectionHeader sectionIndex sectionStart sectionSize sectionEnd sectionLoadAddr : UINTN) :
    Quiet firmware (printSectionInfo sectionHeader sectionIndex sectionStart sectionSize
      sectionEnd sectionLoadAddr) := by
  refine (quiet_print keeps _ _).bind fun _ => ?_
  refine (quiet_sectionNameFrom _ _).bind fun _ => ?_
  refine (quiet_print keeps _ _).bind fun _ => ?_
  iterate 3 refine (quiet_printField keeps _ _).bind fun _ => ?_
  iterate 3 refine (quiet_print keeps _ _).bind fun _ => ?_
  exact quiet_print keeps _ _

theorem quiet_printOptionalHeaderInfo (ntHeader : UINTN) :
    Quiet firmware (printOptionalHeaderInfo ntHeader) := by
  refine (quiet_print keeps _ _).bind fun _ => ?_
  iterate 5 refine (quiet_printField keeps _ _).bind fun _ => ?_
  exact quiet_printField keeps _ _

/-- A line that is no error, printed on the way. -/
theorem wp_print_then {β : Type} {format : String} {args : List PrintArg} {next : Unit → Packer β}
    {post : β → World σ → Prop} {world : World σ} (other : format ∉ peErrors)
    (rest : ∀ after, world.Judged after [] false → wp (machine firmware) (next ()) post after) :
    wp (machine firmware) (print format args >>= next) post world :=
  (quiet_print keeps format args).thenJudged (silent_print other args) fun _ => rest

/-- A line that reports a failed validation. -/
theorem wp_complain {β : Type} {format : String} {args : List PrintArg} {next : Unit → Packer β}
    {post : β → World σ → Prop} {world : World σ} (isError : format ∈ peErrors)
    (rest : ∀ after, world.Judged after [] true → wp (machine firmware) (next ()) post after) :
    wp (machine firmware) (print format args >>= next) post world := by
  rw [wp_bind, wp_print]
  refine rest _ ⟨quiet_print keeps format args world, ?_⟩
  rw [World.serve_trace, peComplained, List.any_append, List.any_cons, Event.isPeError,
    decide_eq_true isError]
  rfl

/-- `load_section` either refuses the section, and says so, or makes the stores of its
    copy. -/
theorem wp_loadSection (address start load size index : UINTN) (world : World σ) :
    wp (machine firmware) (loadSection address start load size index)
      (fun status after =>
        if (sectionHeader world.memory address).Accepted start size then
          status = efiSuccess ∧
            world.Judged after ((sectionHeader world.memory address).log start load world.memory)
              false
        else
          status = efiInvalidParameter ∧ world.Judged after [] true)
      world := by
  unfold loadSection
  simp only [wp_bind, wp_load32, pointerToRawData_field, sizeOfRawData_field,
    virtualAddress_field]
  rw [← wp_bind]
  refine (quiet_printSectionInfo keeps _ _ _ _ _ _).thenJudged (silent_printSectionInfo _ _ _ _ _ _)
    fun _ informed quiet => ?_
  split
  · next beyond =>
    have refused : ¬ (sectionHeader world.memory address).Accepted start size :=
      BitVec.not_le.mpr beyond
    simp only [if_neg refused]
    exact wp_complain keeps (by decide) fun after reported => ⟨rfl, quiet.trans reported⟩
  · next within =>
    have accepted : (sectionHeader world.memory address).Accepted start size :=
      BitVec.not_lt.mp within
    simp only [if_pos accepted]
    rw [wp_bind, wp_copyMem]
    refine wp_print_then keeps (by decide) fun after printed => ?_
    refine ⟨rfl, ?_⟩
    have copy := World.stored_storeAll informed
      (copyLog informed.memory ((sectionHeader world.memory address).move start load).dest
        ((sectionHeader world.memory address).move start load).src
        ((sectionHeader world.memory address).sizeOfRawData.setWidth 64))
    have copied := (quiet.trans ⟨copy, (Bool.or_false _).symm⟩).trans printed
    rw [List.nil_append, List.append_nil, quiet.stored.memory_eq] at copied
    exact copied

/-- The section loop makes the stores of `sectionsRun`, and reports the section it ends
    at.  A section's stores are part of the memory that the following rounds read. -/
theorem wp_loadSections (ntHeader table start load size : UINTN) (i : Nat) (world : World σ) :
    wp (machine firmware) (loadSections ntHeader table start load size i)
      (fun loaded after =>
        let sections := sectionsRun ntHeader table start load size i world.memory
        loaded = sections.1 ∧ world.Judged after sections.2 (!sections.1))
      world := by
  unfold loadSections sectionsRun
  generalize 65536 - i = fuel
  induction fuel generalizing i world with
  | zero => exact ⟨rfl, World.Judged.refl world⟩
  | succ fuel inductionHypothesis =>
    rw [loadSectionsFuel, sectionsRunFuel, wp_bind, wp_load16, numberOfSections_field,
      numberOfSectionsAt]
    by_cases more : i < (word16 world.memory (ntHeader + 6)).toNat
    · simp only [if_pos more]
      rw [wp_bind]
      apply wp_mono (wp_loadSection keeps _ _ _ _ _ world)
      intro status after outcome
      by_cases accepted :
          (sectionHeader world.memory (sectionHeaderAt table i)).Accepted start size
      · simp only [if_pos accepted] at outcome ⊢
        obtain ⟨rfl, copied⟩ := outcome
        change wp _ (loadSectionsFuel ntHeader table start load size fuel (i + 1)) _ _
        apply wp_mono (inductionHypothesis (i + 1) after)
        rintro loaded final ⟨same, judged⟩
        rw [copied.stored.1] at same judged
        exact ⟨same, copied.trans judged⟩
      · simp only [if_neg accepted] at outcome ⊢
        obtain ⟨rfl, refused⟩ := outcome
        exact ⟨rfl, refused⟩
    · simp only [if_neg more]
      exact ⟨rfl, World.Judged.refl world⟩

/-- A validation stores nothing, and errs and says so exactly when the value is not the
    expected one. -/
theorem wp_validateValue {w : Nat} (value expected : BitVec w) {invalid ok : String}
    (isError : invalid ∈ peErrors) (other : ok ∉ peErrors) (world : World σ) :
    wp (machine firmware) (validateValue value expected invalid ok)
      (fun status after =>
        efiError status = decide (value ≠ expected) ∧
          world.Judged after [] (decide (value ≠ expected))) world := by
  unfold validateValue
  by_cases same : value = expected
  · rw [if_neg (not_not.mpr same), decide_eq_false (not_not.mpr same)]
    exact wp_print_then keeps other fun after printed => ⟨rfl, printed⟩
  · rw [if_pos same, decide_eq_true same]
    exact wp_complain keeps isError fun after reported => ⟨rfl, reported⟩

theorem wp_validateDosHeader (dosHeader : UINTN) (world : World σ) :
    wp (machine firmware) (validateDosHeader dosHeader)
      (fun status after =>
        efiError status = decide (word16 world.memory dosHeader ≠ imageDosSignature) ∧
          world.Judged after [] (decide (word16 world.memory dosHeader ≠ imageDosSignature)))
      world := by
  rw [validateDosHeader, wp_bind, wp_load16, eMagic_offset, add_zero]
  exact wp_validateValue keeps _ _ (by decide) (by decide) world

theorem wp_validateNtHeader (ntHeader : UINTN) (world : World σ) :
    wp (machine firmware) (validateNtHeader ntHeader)
      (fun status after =>
        efiError status = decide (word32 world.memory ntHeader ≠ imageNtSignature) ∧
          world.Judged after [] (decide (word32 world.memory ntHeader ≠ imageNtSignature)))
      world := by
  rw [validateNtHeader, wp_bind, wp_load32, signature_offset, add_zero]
  exact wp_validateValue keeps _ _ (by decide) (by decide) world

theorem wp_loadImage (start load size : UINTN) (world : World σ) :
    wp (machine firmware) (loadImage (ntHeaderOf world.memory start) start load size)
      (fun value after =>
        let sections := sectionsRun (ntHeaderOf world.memory start)
          (sectionTableOf world.memory start) start load size 0 world.memory
        value = (if sections.1 then entryOf world.memory start load else 0) ∧
          world.Judged after sections.2 (!sections.1))
      world := by
  refine (quiet_printOptionalHeaderInfo keeps _).thenJudged (silent_printOptionalHeaderInfo _)
    fun _ shown shownQuiet => ?_
  rw [wp_bind, wp_load32, wp_bind, wp_load16, shownQuiet.stored.memory_eq,
    addressOfEntryPoint_field, sizeOfOptionalHeader_field, optionalHeader_offset]
  refine wp_print_then keeps (by decide) fun printed printedQuiet => ?_
  have quiet : world.Judged printed [] false := shownQuiet.trans printedQuiet
  rw [wp_bind]
  apply wp_mono (wp_loadSections keeps _ _ start load size 0 printed)
  rintro loaded after ⟨rfl, judged⟩
  rw [quiet.stored.memory_eq] at judged ⊢
  have all := quiet.trans judged
  rw [List.nil_append, Bool.false_or] at all
  split
  · next finished =>
    refine wp_print_then keeps (by decide) fun ended endedQuiet => ?_
    refine wp_print_then keeps (by decide) fun final finalQuiet => ?_
    have last := (all.trans endedQuiet).trans finalQuiet
    rw [List.append_nil, List.append_nil, Bool.or_false, Bool.or_false] at last
    exact ⟨(if_pos finished).symm, last⟩
  · next refused => exact ⟨(if_neg refused).symm, all⟩

/-- `parse_pe` returns the value of `parsePeRun` and makes its stores, and it reports a
    failed validation exactly when one fails. -/
theorem wp_parsePe_verdict (start load size : UINTN) (world : World σ) :
    wp (machine firmware) (parsePe start load size)
      (fun value after =>
        value = (parsePeRun start load size world.memory).1 ∧
          world.Judged after (parsePeRun start load size world.memory).2
            (!decide (PePasses start load size world.memory))) world := by
  refine wp_print_then keeps (by decide) fun first firstQuiet => ?_
  refine wp_print_then keeps (by decide) fun second secondQuiet => ?_
  refine wp_print_then keeps (by decide) fun third thirdQuiet => ?_
  have greeted : world.Judged third [] false := (firstQuiet.trans secondQuiet).trans thirdQuiet
  rw [wp_bind]
  apply wp_mono (wp_validateDosHeader keeps _ third)
  rintro dosStatus fourth ⟨dosError, fourthJudged⟩
  rw [greeted.stored.memory_eq] at dosError fourthJudged
  have dosChecked := greeted.trans fourthJudged
  rw [dosError, parsePeRun]
  by_cases magic : word16 world.memory start = imageDosSignature
  · rw [decide_eq_false (not_not.mpr magic)] at dosChecked ⊢
    rw [if_neg Bool.false_ne_true, wp_bind, wp_load32, eLfanew_offset,
      dosChecked.stored.memory_eq, wp_bind]
    change wp _ (validateNtHeader (ntHeaderOf world.memory start)) _ _
    apply wp_mono (wp_validateNtHeader keeps _ fourth)
    rintro ntStatus fifth ⟨ntError, fifthJudged⟩
    rw [dosChecked.stored.memory_eq] at ntError fifthJudged
    have ntChecked := dosChecked.trans fifthJudged
    rw [ntError]
    by_cases signed : word32 world.memory (ntHeaderOf world.memory start) = imageNtSignature
    · rw [decide_eq_false (not_not.mpr signed)] at ntChecked ⊢
      rw [if_neg Bool.false_ne_true, if_pos ⟨magic, signed⟩]
      have loads := wp_loadImage keeps start load size fifth
      rw [ntChecked.stored.memory_eq] at loads
      apply wp_mono loads
      rintro value after ⟨rfl, judged⟩
      refine ⟨rfl, ?_⟩
      have all := ntChecked.trans judged
      have decided : decide (PePasses start load size world.memory) =
          (sectionsRun (ntHeaderOf world.memory start) (sectionTableOf world.memory start) start
            load size 0 world.memory).1 := by
        rw [Bool.eq_iff_iff, decide_eq_true_iff, PePasses, and_iff_right magic,
          and_iff_right signed]
      rw [decided]
      exact all
    · rw [decide_eq_true signed] at ntChecked ⊢
      rw [if_pos rfl, if_neg fun both => signed both.2,
        decide_eq_false fun passes : PePasses start load size world.memory => signed passes.2.1]
      exact ⟨rfl, ntChecked⟩
  · rw [decide_eq_true magic] at dosChecked ⊢
    rw [if_pos rfl, if_neg fun both => magic both.1,
      decide_eq_false fun passes : PePasses start load size world.memory => magic passes.1]
    exact ⟨rfl, dosChecked⟩

theorem wp_parsePe (start load size : UINTN) (world : World σ) :
    wp (machine firmware) (parsePe start load size)
      (fun value after =>
        value = (parsePeRun start load size world.memory).1 ∧
          world.Stored after (parsePeRun start load size world.memory).2) world := by
  apply wp_mono (wp_parsePe_verdict keeps start load size world)
  rintro value after ⟨same, judged⟩
  exact ⟨same, judged.stored⟩

theorem exec_parsePe (state : σ) (start load size : UINTN) (memory : Mem) :
    ∃ after, exec (machine firmware) (parsePe start load size) (World.initial memory state) =
        .returned (parsePeRun start load size memory).1 after ∧
      after.memory = replay memory (parsePeRun start load size memory).2 ∧
      after.stores = (parsePeRun start load size memory).2 := by
  have refines := wp_parsePe keeps start load size (World.initial memory state)
  obtain ⟨value, after, returned, rfl, left, stored⟩ := wp_iff_exec.mp refines
  exact ⟨after, returned, left, stored⟩

end Prints

/-! ## Two runs -/

/-- What a run of `parse_pe` leaves behind. -/
structure PeResult where
  value : UINTN
  memory : Mem
  stores : List (UINTN × Byte)

def parsePeResult (start load size : UINTN) (memory : Mem) : PeResult where
  value := (parsePeRun start load size memory).1
  memory := replay memory (parsePeRun start load size memory).2
  stores := (parsePeRun start load size memory).2

/-- `parse_pe` on either of two memories returns, with results that are `related`. -/
def PeRuns (firmware : Firmware σ) (state : σ) (start load size : UINTN) (first second : Mem)
    (related : PeResult → PeResult → Prop) : Prop :=
  wp (machine firmware) (parsePe start load size)
    (fun firstValue firstAfter =>
      wp (machine firmware) (parsePe start load size)
        (fun secondValue secondAfter =>
          related ⟨firstValue, firstAfter.memory, firstAfter.stores⟩
            ⟨secondValue, secondAfter.memory, secondAfter.stores⟩)
        (World.initial second state))
    (World.initial first state)

theorem peRuns_iff (keeps : PrintKeepsMemory firmware) (state : σ) (start load size : UINTN)
    (first second : Mem) (related : PeResult → PeResult → Prop) :
    PeRuns firmware state start load size first second related ↔
      related (parsePeResult start load size first) (parsePeResult start load size second) := by
  obtain ⟨firstAfter, firstReturned, firstMemory, firstStores⟩ :=
    exec_parsePe keeps state start load size first
  obtain ⟨secondAfter, secondReturned, secondMemory, secondStores⟩ :=
    exec_parsePe keeps state start load size second
  unfold PeRuns wp parsePeResult
  rw [firstReturned]
  simp only [secondReturned, firstMemory, firstStores, secondMemory, secondStores]

end HvisorUefiPacker
